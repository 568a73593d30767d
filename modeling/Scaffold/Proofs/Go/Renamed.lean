import Scaffold.Proofs.Go.Spelling

/-! The meaning of a type with its names changed. -/

namespace Scaffold.Go

/-- What plain names and names behind those of packages are changed to. -/
structure Naming where
  name : String → TypeMeaning
  qualified : String → String → TypeMeaning

mutual

/-- A meaning with its names changed. -/
def TypeMeaning.renamed (naming : Naming) : TypeMeaning → TypeMeaning
  | .name text => naming.name text
  | .qualified package name => naming.qualified package name
  | .generic base args => .generic (base.renamed naming) (renamedTypes naming args)
  | .pointer elem => .pointer (elem.renamed naming)
  | .slice elem => .slice (elem.renamed naming)
  | .array length elem => .array length (elem.renamed naming)
  | .map key value => .map (key.renamed naming) (value.renamed naming)
  | .chan dir elem => .chan dir (elem.renamed naming)
  | .func signature => .func (signature.renamed naming)
  | .struct fields => .struct (renamedFields naming fields)
  | .interface elems => .interface (renamedElems naming elems)
  | .comment text => .comment text
  | .approximate text => .approximate text

/-- Meanings with their names changed. -/
def renamedTypes (naming : Naming) : List TypeMeaning → List TypeMeaning
  | [] => []
  | first :: rest => first.renamed naming :: renamedTypes naming rest

/-- A signature with the names in its types changed. -/
def SignatureMeaning.renamed (naming : Naming) : SignatureMeaning → SignatureMeaning
  | .mk params results => .mk (renamedParams naming params) (renamedParams naming results)

/-- Parameters with the names in their types changed. -/
def renamedParams (naming : Naming) : List ParamMeaning → List ParamMeaning
  | [] => []
  | .mk name type variadic :: rest =>
    .mk name (type.renamed naming) variadic :: renamedParams naming rest

/-- Fields with the names in their types changed. -/
def renamedFields (naming : Naming) : List FieldMeaning → List FieldMeaning
  | [] => []
  | .mk name type tag :: rest => .mk name (type.renamed naming) tag :: renamedFields naming rest

/-- Lines of an interface with the names in their types changed. -/
def renamedElems (naming : Naming) : List ElemMeaning → List ElemMeaning
  | [] => []
  | .method name signature :: rest => .method name (signature.renamed naming) :: renamedElems naming rest
  | .embedded type :: rest => .embedded (type.renamed naming) :: renamedElems naming rest
  | .union types :: rest => .union (renamedTypes naming types) :: renamedElems naming rest

end

/-- Names changed twice. -/
def Naming.andThen (first second : Naming) : Naming where
  name text := (first.name text).renamed second
  qualified package name := (first.qualified package name).renamed second

section Twice

variable (first second : Naming)

-- One case for each form of a type: its parts are changed in its place.
mutual

/-- To change names twice is to change them by both changes in turn. -/
theorem TypeMeaning.renamed_renamed : ∀ meaning : TypeMeaning,
    (meaning.renamed first).renamed second = meaning.renamed (first.andThen second)
  | .name _ | .qualified _ _ | .comment _ | .approximate _ => by
    simp only [TypeMeaning.renamed, Naming.andThen]
  | .generic base args => by
    simp only [TypeMeaning.renamed, base.renamed_renamed, renamedTypes_twice args]
  | .pointer elem | .slice elem | .array _ elem | .chan _ elem => by
    simp only [TypeMeaning.renamed, elem.renamed_renamed]
  | .map key value => by
    simp only [TypeMeaning.renamed, key.renamed_renamed, value.renamed_renamed]
  | .func signature => by
    simp only [TypeMeaning.renamed, signature.renamed_renamed]
  | .struct fields => by
    simp only [TypeMeaning.renamed, renamedFields_twice fields]
  | .interface elems => by
    simp only [TypeMeaning.renamed, renamedElems_twice elems]

theorem renamedTypes_twice : ∀ types : List TypeMeaning,
    renamedTypes second (renamedTypes first types) = renamedTypes (first.andThen second) types
  | [] => by simp only [renamedTypes]
  | type :: rest => by
    simp only [renamedTypes, type.renamed_renamed, renamedTypes_twice rest]

theorem SignatureMeaning.renamed_renamed : ∀ signature : SignatureMeaning,
    (signature.renamed first).renamed second = signature.renamed (first.andThen second)
  | .mk params results => by
    simp only [SignatureMeaning.renamed, renamedParams_twice params, renamedParams_twice results]

theorem renamedParams_twice : ∀ params : List ParamMeaning,
    renamedParams second (renamedParams first params) = renamedParams (first.andThen second) params
  | [] => by simp only [renamedParams]
  | .mk _ type _ :: rest => by
    simp only [renamedParams, type.renamed_renamed, renamedParams_twice rest]

theorem renamedFields_twice : ∀ fields : List FieldMeaning,
    renamedFields second (renamedFields first fields) = renamedFields (first.andThen second) fields
  | [] => by simp only [renamedFields]
  | .mk _ type _ :: rest => by
    simp only [renamedFields, type.renamed_renamed, renamedFields_twice rest]

theorem renamedElems_twice : ∀ elems : List ElemMeaning,
    renamedElems second (renamedElems first elems) = renamedElems (first.andThen second) elems
  | [] => by simp only [renamedElems]
  | .method _ signature :: rest => by
    simp only [renamedElems, signature.renamed_renamed, renamedElems_twice rest]
  | .embedded type :: rest => by
    simp only [renamedElems, type.renamed_renamed, renamedElems_twice rest]
  | .union types :: rest => by
    simp only [renamedElems, renamedTypes_twice types, renamedElems_twice rest]

end

end Twice

/-- Names that are changed to names. -/
structure Naming.KeepsNames (naming : Naming) : Prop where
  name (text : String) : (naming.name text).isTypeName = true
  qualified (package name : String) : (naming.qualified package name).isTypeName = true

namespace Naming.KeepsNames

variable {naming : Naming} {meaning : TypeMeaning}

theorem isTypeName (keeps : naming.KeepsNames) (named : meaning.isTypeName = true) :
    (meaning.renamed naming).isTypeName = true := by
  cases meaning with
  | name text => rw [TypeMeaning.renamed]; exact keeps.name text
  | qualified package selected => rw [TypeMeaning.renamed]; exact keeps.qualified package selected
  | _ => cases named

theorem isNamed (keeps : naming.KeepsNames) (named : meaning.isNamed = true) :
    (meaning.renamed naming).isNamed = true := by
  have whole : ∀ {meaning : TypeMeaning}, meaning.isTypeName = true → meaning.isNamed = true := by
    intro meaning typeName
    cases meaning <;> first | rfl | cases typeName
  cases meaning with
  | name text => rw [TypeMeaning.renamed]; exact whole (keeps.name text)
  | qualified package selected => rw [TypeMeaning.renamed]; exact whole (keeps.qualified package selected)
  | generic base args => rw [TypeMeaning.renamed]; rfl
  | _ => cases named

end Naming.KeepsNames

section Maps

variable (naming : Naming)

/-- A parameter with the names in its type changed. -/
def ParamMeaning.renamed (param : ParamMeaning) : ParamMeaning :=
  .mk param.name (param.type.renamed naming) param.variadic

/-- A field with the names in its type changed. -/
def FieldMeaning.renamed : FieldMeaning → FieldMeaning
  | .mk name type tag => .mk name (type.renamed naming) tag

theorem renamedTypes_eq_map (types : List TypeMeaning) :
    renamedTypes naming types = types.map (TypeMeaning.renamed naming) := by
  induction types with
  | nil => rfl
  | cons first rest ih => rw [renamedTypes, ih, List.map_cons]

theorem renamedParams_eq_map (params : List ParamMeaning) :
    renamedParams naming params = params.map (ParamMeaning.renamed naming) := by
  induction params with
  | nil => rfl
  | cons first rest ih =>
    obtain ⟨name, type, variadic⟩ := first
    rw [renamedParams, ih, List.map_cons]
    rfl

theorem renamedFields_eq_map (fields : List FieldMeaning) :
    renamedFields naming fields = fields.map (FieldMeaning.renamed naming) := by
  induction fields with
  | nil => rfl
  | cons first rest ih =>
    obtain ⟨name, type, tag⟩ := first
    rw [renamedFields, ih, List.map_cons]
    rfl

end Maps

end Scaffold.Go
