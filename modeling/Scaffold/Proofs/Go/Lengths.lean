import Mathlib.Data.List.Infix
import Scaffold.Go.Function
import Scaffold.Proofs.Go.Printed

/-! Lengths of arrays: they are written as they stand, and name no package. -/

namespace Scaffold.Go

mutual

/-- A type with the lengths of its arrays changed; what an alias stands for is left as it is. -/
def ResolvedType.mapLengths (change : String → String) : ResolvedType → ResolvedType
  | .array length elem => .array (change length) (elem.mapLengths change)
  | .named type => .named (type.mapLengths change)
  | .pointer elem => .pointer (elem.mapLengths change)
  | .slice elem => .slice (elem.mapLengths change)
  | .map key value => .map (key.mapLengths change) (value.mapLengths change)
  | .chan dir elem => .chan dir (elem.mapLengths change)
  | .func signature => .func (signature.mapLengths change)
  | .struct fields => .struct (mapFieldLengths change fields)
  | .interface elems => .interface (mapElemLengths change elems)
  | .basic name => .basic name
  | .error => .error
  | .any => .any
  | .aliased package name target => .aliased package name target
  | .param name => .param name
  | .invalid text => .invalid text

/-- A defined type with the lengths in its arguments changed. -/
def NamedType.mapLengths (change : String → String) : NamedType → NamedType
  | ⟨package, name, args, shape⟩ => ⟨package, name, mapArgLengths change args, shape⟩

/-- Types with their lengths changed. -/
def mapArgLengths (change : String → String) : List ResolvedType → List ResolvedType
  | [] => []
  | type :: rest => type.mapLengths change :: mapArgLengths change rest

/-- A signature with the lengths in its parameters and results changed. -/
def Signature.mapLengths (change : String → String) : Signature → Signature
  | ⟨params, results, variadic⟩ =>
    ⟨mapVarLengths change params, mapVarLengths change results, variadic⟩

/-- Variables with the lengths in their types changed. -/
def mapVarLengths (change : String → String) : List Var → List Var
  | [] => []
  | ⟨name, type⟩ :: rest => ⟨name, type.mapLengths change⟩ :: mapVarLengths change rest

/-- Fields with the lengths in their types changed. -/
def mapFieldLengths (change : String → String) : List StructField → List StructField
  | [] => []
  | ⟨name, type⟩ :: rest => ⟨name, type.mapLengths change⟩ :: mapFieldLengths change rest

/-- Interface elements with the lengths in them changed. -/
def mapElemLengths (change : String → String) : List InterfaceElem → List InterfaceElem
  | [] => []
  | .method name signature :: rest =>
    .method name (signature.mapLengths change) :: mapElemLengths change rest
  | .embedded type :: rest => .embedded (type.mapLengths change) :: mapElemLengths change rest

end

section Packages

variable (change : String → String)

theorem packagesOf_append (first second : List Piece) :
    packagesOf (first ++ second) = packagesOf first ++ packagesOf second :=
  List.filterMap_append

@[simp] theorem packagesOf_nil : packagesOf [] = [] := rfl

@[simp] theorem packagesOf_text (text : String) (rest : List Piece) :
    packagesOf (.text text :: rest) = packagesOf rest := rfl

@[simp] theorem packagesOf_name (package : PackageRef) (name : String) (rest : List Piece) :
    packagesOf (.name package name :: rest) = package :: packagesOf rest := rfl

/-- The brackets that give way to dots name no package. -/
theorem packagesOf_spread (needed : Bool) (type : ResolvedType) :
    packagesOf (spread (needed && type.isSlice) type.pieces) = packagesOf type.pieces := by
  cases needed <;> cases type <;> simp [spread, ResolvedType.isSlice, ResolvedType.pieces]

theorem packagesOf_enclosed (needed : Bool) (pieces : List Piece) :
    packagesOf (enclosed needed pieces) = packagesOf pieces := by
  cases needed <;> simp [enclosed, packagesOf_append]

mutual

/-- The packages that a type names do not depend on the lengths in it. -/
theorem packagesOf_mapLengths : ∀ type : ResolvedType,
    packagesOf (type.mapLengths change).pieces = packagesOf type.pieces
  | .basic _ | .error | .any | .aliased _ _ _ | .param _ | .invalid _ => by
    rw [ResolvedType.mapLengths]
  | .named ⟨package, name, [], shape⟩ => by
    simp [ResolvedType.mapLengths, NamedType.mapLengths, mapArgLengths]
  | .named ⟨package, name, first :: rest, shape⟩ => by
    have args := packagesOf_mapArgLengths (first :: rest)
    rw [mapArgLengths] at args
    simp [ResolvedType.mapLengths, NamedType.mapLengths, mapArgLengths, ResolvedType.pieces,
      NamedType.pieces, packagesOf_append, args]
  | .pointer elem | .slice elem | .array _ elem => by
    simp [ResolvedType.mapLengths, ResolvedType.pieces, packagesOf_mapLengths elem]
  | .chan dir elem => by
    simp [ResolvedType.mapLengths, ResolvedType.pieces, packagesOf_enclosed,
      packagesOf_mapLengths elem]
  | .map key value => by
    simp [ResolvedType.mapLengths, ResolvedType.pieces, packagesOf_append,
      packagesOf_mapLengths key, packagesOf_mapLengths value]
  | .func signature => by
    simp [ResolvedType.mapLengths, ResolvedType.pieces, packagesOf_signature signature]
  | .struct fields => by
    simp [ResolvedType.mapLengths, ResolvedType.pieces, packagesOf_append,
      packagesOf_mapFieldLengths fields]
  | .interface elems => by
    simp [ResolvedType.mapLengths, ResolvedType.pieces, packagesOf_append,
      packagesOf_mapElemLengths elems]

theorem packagesOf_mapArgLengths : ∀ types : List ResolvedType,
    packagesOf (argPieces (mapArgLengths change types)) = packagesOf (argPieces types)
  | [] => by rw [mapArgLengths]
  | [type] => by simp [mapArgLengths, argPieces, packagesOf_mapLengths type]
  | first :: second :: rest => by
    have others := packagesOf_mapArgLengths (second :: rest)
    rw [mapArgLengths] at others
    simp [mapArgLengths, argPieces, packagesOf_append, packagesOf_mapLengths first, others]

theorem packagesOf_signature : ∀ signature : Signature,
    packagesOf (signature.mapLengths change).pieces = packagesOf signature.pieces
  | ⟨params, results, variadic⟩ => by
    simp [Signature.mapLengths, Signature.pieces, packagesOf_append,
      packagesOf_paramPieces variadic params, packagesOf_resultPieces results]

theorem packagesOf_paramPieces (variadic : Bool) : ∀ params : List Var,
    packagesOf (paramPieces variadic (mapVarLengths change params)) =
      packagesOf (paramPieces variadic params)
  | [] => by rw [mapVarLengths]
  | [⟨name, type⟩] => by
    simp only [mapVarLengths, paramPieces, packagesOf_append, packagesOf_spread,
      packagesOf_mapLengths type]
  | ⟨name, type⟩ :: ⟨next, other⟩ :: rest => by
    have others := packagesOf_paramPieces variadic (⟨next, other⟩ :: rest)
    rw [mapVarLengths] at others
    simp [mapVarLengths, paramPieces, packagesOf_append, packagesOf_mapLengths type, others]

theorem packagesOf_resultPieces : ∀ results : List Var,
    packagesOf (resultPieces (mapVarLengths change results)) = packagesOf (resultPieces results)
  | [] => by rw [mapVarLengths]
  | [⟨name, type⟩] => by
    rw [mapVarLengths, mapVarLengths, resultPieces, resultPieces]
    split <;> simp [packagesOf_append, packagesOf_mapLengths type]
  | ⟨name, type⟩ :: ⟨next, other⟩ :: rest => by
    have both := packagesOf_paramPieces false (⟨name, type⟩ :: ⟨next, other⟩ :: rest)
    rw [mapVarLengths, mapVarLengths] at both
    simp [mapVarLengths, resultPieces, varPieces_eq, packagesOf_append, both]

theorem packagesOf_mapFieldLengths : ∀ fields : List StructField,
    packagesOf (fieldPieces (mapFieldLengths change fields)) = packagesOf (fieldPieces fields)
  | [] => by rw [mapFieldLengths]
  | [⟨name, type⟩] => by
    simp [mapFieldLengths, fieldPieces, packagesOf_append, packagesOf_mapLengths type]
  | ⟨name, type⟩ :: ⟨next, other⟩ :: rest => by
    have others := packagesOf_mapFieldLengths (⟨next, other⟩ :: rest)
    rw [mapFieldLengths] at others
    simp [mapFieldLengths, fieldPieces, packagesOf_append, packagesOf_mapLengths type, others]

theorem packagesOf_mapElemLengths : ∀ elems : List InterfaceElem,
    packagesOf (elemPieces (mapElemLengths change elems)) = packagesOf (elemPieces elems)
  | [] => by rw [mapElemLengths]
  | [.method name signature] => by
    simp [mapElemLengths, elemPieces, InterfaceElem.pieces, packagesOf_signature signature]
  | [.embedded type] => by
    simp [mapElemLengths, elemPieces, InterfaceElem.pieces, packagesOf_mapLengths type]
  | .method name signature :: second :: rest => by
    have others := packagesOf_mapElemLengths (second :: rest)
    cases second <;> rw [mapElemLengths] at others <;>
      simp [mapElemLengths, elemPieces, InterfaceElem.pieces, packagesOf_append,
        packagesOf_signature signature, others]
  | .embedded type :: second :: rest => by
    have others := packagesOf_mapElemLengths (second :: rest)
    cases second <;> rw [mapElemLengths] at others <;>
      simp [mapElemLengths, elemPieces, InterfaceElem.pieces, packagesOf_append,
        packagesOf_mapLengths type, others]

end

theorem isContext_mapLengths (type : ResolvedType) :
    (type.mapLengths change).isContext = type.isContext := by
  cases type with
  | named type =>
    obtain ⟨package, name, args, shape⟩ := type
    simp [ResolvedType.mapLengths, NamedType.mapLengths, ResolvedType.isContext]
  | _ => simp [ResolvedType.mapLengths, ResolvedType.isContext]

theorem zeroForm_mapLengths (type : ResolvedType) :
    (type.mapLengths change).zeroForm = type.zeroForm := by
  cases type with
  | named type =>
    obtain ⟨package, name, args, shape⟩ := type
    simp [ResolvedType.mapLengths, NamedType.mapLengths, ResolvedType.zeroForm]
  | _ => simp [ResolvedType.mapLengths, ResolvedType.zeroForm]

/-- The packages that a zero value names do not depend on the lengths in its type. -/
theorem packagesOf_zeroPieces (type : ResolvedType) :
    packagesOf (type.mapLengths change).zeroPieces = packagesOf type.zeroPieces := by
  rw [ResolvedType.zeroPieces, ResolvedType.zeroPieces, zeroForm_mapLengths]
  split <;> simp [packagesOf_append, packagesOf_mapLengths]

theorem mapVarLengths_eq (vars : List Var) :
    mapVarLengths change vars = vars.map fun var => ⟨var.name, var.type.mapLengths change⟩ := by
  induction vars with
  | nil => rw [mapVarLengths, List.map_nil]
  | cons first rest ih =>
    obtain ⟨name, type⟩ := first
    rw [mapVarLengths, List.map_cons, ih]

end Packages

/-- An array of some length is part of a type as it is written. -/
inductive HasLength (length : String) : ResolvedType → Prop
  | here (elem : ResolvedType) : HasLength length (.array length elem)
  | array {other : String} {elem : ResolvedType} : HasLength length elem →
      HasLength length (.array other elem)
  | argument {type : NamedType} {arg : ResolvedType} : arg ∈ type.args → HasLength length arg →
      HasLength length (.named type)
  | pointer {elem : ResolvedType} : HasLength length elem → HasLength length (.pointer elem)
  | slice {elem : ResolvedType} : HasLength length elem → HasLength length (.slice elem)
  | key {key value : ResolvedType} : HasLength length key → HasLength length (.map key value)
  | value {key value : ResolvedType} : HasLength length value → HasLength length (.map key value)
  | chan {dir : ChanDir} {elem : ResolvedType} : HasLength length elem →
      HasLength length (.chan dir elem)
  | param {signature : Signature} {param : Var} : param ∈ signature.params →
      HasLength length param.type → HasLength length (.func signature)
  | result {signature : Signature} {result : Var} : result ∈ signature.results →
      HasLength length result.type → HasLength length (.func signature)
  | field {fields : List StructField} {field : StructField} : field ∈ fields →
      HasLength length field.type → HasLength length (.struct fields)
  | methodParam {elems : List InterfaceElem} {name : String} {signature : Signature} {param : Var} :
      .method name signature ∈ elems → param ∈ signature.params → HasLength length param.type →
      HasLength length (.interface elems)
  | methodResult {elems : List InterfaceElem} {name : String} {signature : Signature}
      {result : Var} : .method name signature ∈ elems → result ∈ signature.results →
      HasLength length result.type → HasLength length (.interface elems)
  | embedded {elems : List InterfaceElem} {type : ResolvedType} : .embedded type ∈ elems →
      HasLength length type → HasLength length (.interface elems)

section Infix

variable {qualifier : PackageRef → String}

variable (qualifier) in
/--
A text stands in a type as it is written.

It also stands in what is left of a slice when the slice is spread.
-/
structure StandsIn (text : List Char) (type : ResolvedType) : Prop where
  whole : text <:+: type.chars qualifier
  spread : ∀ elem, type = .slice elem → text <:+: elem.chars qualifier

theorem StandsIn.of_infix {text : List Char} {type part : ResolvedType}
    (inner : StandsIn qualifier text part)
    (outer : part.chars qualifier <:+: type.chars qualifier) (other : type.isSlice = false) :
    StandsIn qualifier text type :=
  ⟨inner.whole.trans outer, by rintro elem rfl; cases other⟩

/-- A type stands in the parameters or results it is part of. -/
theorem StandsIn.infix_listChars {text : List Char} {var : Var} {vars : List Var}
    (stands : StandsIn qualifier text var.type) (member : var ∈ vars) (variadic : Bool) :
    text <:+: listChars qualifier variadic vars := by
  obtain ⟨entry, listed, rfl⟩ := List.mem_map.mp ((map_snd_spreadable variadic vars).symm ▸ member)
  refine List.IsInfix.trans ?_ (infix_joinWith _ (List.mem_map_of_mem listed))
  obtain ⟨spreads, name, type⟩ := entry
  have behind : charsOf qualifier (Go.spread spreads type.pieces) <:+:
      spreadChars qualifier (spreads, ⟨name, type⟩) := (List.suffix_append _ _).isInfix
  refine List.IsInfix.trans ?_ behind
  cases spreads with
  | false => exact stands.whole
  | true =>
    have sliced := isSlice_of_spreadable variadic vars _ listed rfl
    cases type with
    -- Of a slice that is spread, the type of its elements is written.
    | slice elem =>
      rw [charsOf_spread_slice]
      exact (stands.spread elem rfl).trans (List.suffix_append _ _).isInfix
    | _ => cases sliced

theorem StandsIn.infix_resultChars {text : List Char} {var : Var} {results : List Var}
    (stands : StandsIn qualifier text var.type) (member : var ∈ results) :
    text <:+: resultChars qualifier results := by
  rw [resultChars, if_neg (by simpa using List.ne_nil_of_mem member), resultText]
  refine List.IsInfix.trans ?_ (List.suffix_cons _ _).isInfix
  split
  · rename_i type bare
    rw [eq_of_bareResult? bare] at member
    rw [List.mem_singleton.mp member] at stands
    exact stands.whole
  · refine (stands.infix_listChars member false).trans ?_
    exact (List.prefix_append _ _).isInfix.trans (List.suffix_cons _ _).isInfix

theorem StandsIn.infix_signature {text : List Char} {var : Var} {signature : Signature}
    (stands : StandsIn qualifier text var.type)
    (member : var ∈ signature.params ∨ var ∈ signature.results) :
    text <:+: signature.chars qualifier := by
  obtain ⟨params, results, variadic⟩ := signature
  rw [chars_signature]
  refine List.IsInfix.trans ?_ (List.suffix_cons _ _).isInfix
  rcases member with param | result
  · exact (stands.infix_listChars param variadic).trans (List.prefix_append _ _).isInfix
  · exact (stands.infix_resultChars result).trans
      ((List.suffix_cons _ _).trans (List.suffix_append _ _)).isInfix

/-- An element stands in the interface it is part of. -/
theorem infix_interface {elems : List InterfaceElem} {elem : InterfaceElem} (member : elem ∈ elems) :
    elem.chars qualifier <:+: (ResolvedType.interface elems).chars qualifier := by
  rw [chars_interface]
  refine (infix_joinWith "; ".toList (List.mem_map_of_mem member)).trans ?_
  exact (List.prefix_append _ _).isInfix.trans
    ((List.suffix_cons _ _).trans (List.suffix_append _ _)).isInfix

/-- A method stands with its signature. -/
theorem infix_method (name : String) (signature : Signature) :
    signature.chars qualifier <:+: (InterfaceElem.method name signature).chars qualifier := by
  rw [InterfaceElem.chars, InterfaceElem.pieces, charsOf_text]
  exact (List.suffix_append _ _).isInfix

variable (qualifier) in
/-- A length stands between its brackets as it is, under whatever qualifiers. -/
theorem HasLength.standsIn {length : String} {type : ResolvedType} (has : HasLength length type) :
    StandsIn qualifier ('[' :: length.toList ++ [']']) type := by
  induction has with
  | here elem =>
    refine ⟨?_, by simp⟩
    rw [chars_array]
    exact ⟨[], elem.chars qualifier, by simp⟩
  | array _ ih =>
    refine ih.of_infix ?_ rfl
    rw [chars_array]
    exact ((List.suffix_cons _ _).trans ((List.suffix_append _ _).trans
      (List.suffix_cons _ _))).isInfix
  | @argument type arg member _ ih =>
    obtain ⟨package, name, args, shape⟩ := type
    refine ih.of_infix ?_ rfl
    have listed := infix_joinWith ", ".toList (List.mem_map_of_mem (f := ResolvedType.chars qualifier)
      member)
    obtain ⟨first, rest, rfl⟩ := List.exists_cons_of_ne_nil (List.ne_nil_of_mem member)
    rw [← charsOf_argPieces] at listed
    refine listed.trans ?_
    rw [ResolvedType.chars, ResolvedType.pieces, NamedType.pieces, charsOf_append]
    exact ((List.suffix_append _ _).trans (List.suffix_append _ _)).isInfix.trans
      (List.prefix_append _ _).isInfix
  | pointer _ ih =>
    refine ih.of_infix ?_ rfl
    rw [chars_pointer]
    exact (List.suffix_cons _ _).isInfix
  | slice _ ih =>
    refine ⟨ih.whole.trans ?_, by rintro elem ⟨⟩; exact ih.whole⟩
    rw [chars_slice]
    exact ((List.suffix_cons _ _).trans (List.suffix_cons _ _)).isInfix
  | key _ ih =>
    refine ih.of_infix ?_ rfl
    rw [chars_map]
    exact (List.prefix_append _ _).isInfix.trans
      ((List.suffix_cons _ _).trans (List.suffix_append _ _)).isInfix
  | value _ ih =>
    refine ih.of_infix ?_ rfl
    rw [chars_map]
    exact ((List.suffix_cons _ _).trans ((List.suffix_append _ _).trans
      ((List.suffix_cons _ _).trans (List.suffix_append _ _)))).isInfix
  | chan _ ih =>
    refine ih.of_infix ?_ rfl
    rw [chars_chan, elemChars]
    split
    · exact (List.prefix_append _ _).isInfix.trans
        ((List.suffix_cons _ _).trans (List.suffix_append _ _)).isInfix
    · exact (List.suffix_append _ _).isInfix
  | param member _ ih =>
    refine ⟨(ih.infix_signature (.inl member)).trans ?_, by simp⟩
    rw [chars_func]
    exact (List.suffix_append _ _).isInfix
  | result member _ ih =>
    refine ⟨(ih.infix_signature (.inr member)).trans ?_, by simp⟩
    rw [chars_func]
    exact (List.suffix_append _ _).isInfix
  | @field fields field member _ ih =>
    refine ih.of_infix ?_ rfl
    have typed : field.type.chars qualifier <:+: field.chars qualifier :=
      (List.suffix_append _ _).isInfix
    rw [chars_struct]
    refine typed.trans ((infix_joinWith "; ".toList (List.mem_map_of_mem member)).trans ?_)
    exact (List.prefix_append _ _).isInfix.trans
      ((List.suffix_cons _ _).trans (List.suffix_append _ _)).isInfix
  | @methodParam _ name signature _ member held _ ih =>
    exact ⟨(ih.infix_signature (.inl held)).trans
      ((infix_method name signature).trans (infix_interface member)), by simp⟩
  | @methodResult _ name signature _ member held _ ih =>
    exact ⟨(ih.infix_signature (.inr held)).trans
      ((infix_method name signature).trans (infix_interface member)), by simp⟩
  | embedded member _ ih =>
    exact ih.of_infix (chars_embedded _ ▸ infix_interface member) rfl

end Infix

/-- A function with the lengths in its parameters and results changed. -/
def Function.mapLengths (change : String → String) (function : Function) : Function :=
  { function with signature := function.signature.mapLengths change }

end Scaffold.Go
