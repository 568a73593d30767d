import Scaffold.Proofs.Go.Definitions
import Scaffold.Proofs.Go.Mentions

/-! The shapes that a package records for its declared types are those reached by following their
definitions. -/

namespace Scaffold.Go

open Relation (ReflTransGen TransGen)

/-- A declared type that is defined as no valid type. -/
def IsInvalid (definitions : List (String × ResolvedType)) (name : String) : Prop :=
  ∃ text, definitions.lookup name = some (.invalid text)

/-- A declared type with a valid definition leads on to the one that its right-hand side leads to. -/
def LeadsOn (decls : TypeDecls) (invalid : String → Prop) (name other : String) : Prop :=
  ¬ invalid name ∧
    ∃ decl start, decls.lookup name = some decl ∧ decl.lead decls = .name other start

/-- The shape that is reached from a declared type by following definitions. Nothing is known behind
an invalid one, and behind one that leads back to itself. -/
inductive ShapeBehind (decls : TypeDecls) (invalid : String → Prop) : String → Shape → Prop
  | invalid {name : String} (none : invalid name) : ShapeBehind decls invalid name .unknown
  | shows {name : String} {decl : TypeDecl} {shape : Shape} (valid : ¬ invalid name)
      (found : decls.lookup name = some decl) (lead : decl.lead decls = .shape shape) :
    ShapeBehind decls invalid name shape
  | further {name other : String} {shape : Shape} (leads : LeadsOn decls invalid name other)
      (behind : ShapeBehind decls invalid other shape) : ShapeBehind decls invalid name shape
  | circle {name : String} (loop : TransGen (LeadsOn decls invalid) name name) :
    ShapeBehind decls invalid name .unknown

section Unique

variable {decls : TypeDecls} {invalid : String → Prop} {name other : String} {shape shape' : Shape}

/-- A declared type leads on to one other at most. -/
theorem LeadsOn.unique {next : String} (first : LeadsOn decls invalid name other)
    (second : LeadsOn decls invalid name next) : other = next := by
  obtain ⟨-, decl, start, found, lead⟩ := first
  obtain ⟨-, decl', start', found', lead'⟩ := second
  cases found.symm.trans found'
  cases lead.symm.trans lead'
  rfl

theorem LeadsOn.ne_shape {decl : TypeDecl} (leads : LeadsOn decls invalid name other)
    (found : decls.lookup name = some decl) : decl.lead decls ≠ .shape shape := by
  obtain ⟨-, decl', start, found', lead⟩ := leads
  cases found.symm.trans found'
  rw [lead]
  exact ShapeLead.noConfusion

/-- What a type on a circle leads on to is on a circle itself. -/
theorem loop_of_leadsOn (loop : TransGen (LeadsOn decls invalid) name name)
    (leads : LeadsOn decls invalid name other) : TransGen (LeadsOn decls invalid) other other := by
  obtain ⟨next, first, back⟩ := TransGen.head'_iff.mp loop
  obtain rfl := leads.unique first
  exact TransGen.tail' back leads

/-- Nothing is known behind a type on a circle. -/
theorem ShapeBehind.of_circle (behind : ShapeBehind decls invalid name shape)
    (loop : TransGen (LeadsOn decls invalid) name name) : shape = .unknown := by
  induction behind with
  | invalid | circle => rfl
  | shows valid found lead =>
    obtain ⟨next, first, -⟩ := TransGen.head'_iff.mp loop
    exact absurd lead (first.ne_shape found)
  | further leads _ ih => exact ih (loop_of_leadsOn loop leads)

/-- Following definitions reaches no more than one shape. -/
theorem ShapeBehind.unique (first : ShapeBehind decls invalid name shape)
    (second : ShapeBehind decls invalid name shape') : shape = shape' := by
  -- On the first way: the second one takes the same steps, unless there is a circle.
  induction first with
  | invalid none =>
    cases second with
    | invalid | circle => rfl
    | shows valid => exact absurd none valid
    | further leads => exact absurd none leads.1
  | shows valid found lead =>
    cases second with
    | invalid none => exact absurd none valid
    | shows _ found' lead' =>
      cases found.symm.trans found'
      cases lead.symm.trans lead'
      rfl
    | further leads => exact absurd lead (leads.ne_shape found)
    | circle loop => exact (ShapeBehind.shows valid found lead).of_circle loop
  | further leads behind ih =>
    cases second with
    | invalid none => exact absurd none leads.1
    | shows _ found lead => exact absurd lead (leads.ne_shape found)
    | further leads' behind' =>
      obtain rfl := leads.unique leads'
      exact ih behind'
    | circle loop => exact (ShapeBehind.further leads behind).of_circle loop
  | circle loop => exact (second.of_circle loop).symm

/-- What is reached from a type further on is reached from the type. -/
theorem ShapeBehind.of_leadsOn (leads : ReflTransGen (LeadsOn decls invalid) name other)
    (behind : ShapeBehind decls invalid other shape) : ShapeBehind decls invalid name shape := by
  induction leads using ReflTransGen.head_induction_on with
  | refl => exact behind
  | head first _ ih => exact .further first ih

end Unique

section Follow

variable {package : PackageRef} {decls : TypeDecls} {after : Findings}
  {definitions : List (String × ResolvedType)}

/-- Every declared type has a definition. -/
def AllDefined (package : PackageRef) (decls : TypeDecls) (after : Findings)
    (definitions : List (String × ResolvedType)) : Prop :=
  ∀ name decl, decls.lookup name = some decl →
    ∃ type, definitions.lookup name = some type ∧ Defines package decls after name decl type

/-- What a declared type is defined as, if that is no alias. -/
inductive EndsIn (package : PackageRef) (decls : TypeDecls) (invalid : String → Prop)
    (name : String) : ResolvedType → Prop
  | invalid {text : String} (none : invalid name) : EndsIn package decls invalid name (.invalid text)
  | shows {type : ResolvedType} {decl : TypeDecl} {shape : Shape} (valid : ¬ invalid name)
      (found : decls.lookup name = some decl) (lead : decl.lead decls = .shape shape)
      (own : type.Shows package.path shape) : EndsIn package decls invalid name type
  | defined {other : String} {args : List ResolvedType} {shape : Shape} {inner : TypeDecl}
      (leads : LeadsOn decls invalid name other) (found : decls.lookup other = some inner) :
    EndsIn package decls invalid name (.named ⟨package, other, args, shape⟩)

/-- A definition that is some other type is no invalid one. -/
theorem not_isInvalid {name : String} {type : ResolvedType}
    (defined : definitions.lookup name = some type) (valid : ∀ text, type ≠ .invalid text) :
    ¬ IsInvalid definitions name := by
  rintro ⟨text, held⟩
  exact valid text (Option.some.inj (defined.symm.trans held))

/-- Behind all aliases, a definition is that of a declared type further on, which is no alias. -/
theorem exists_endsIn (all : AllDefined package decls after definitions) {name : String}
    {decl : TypeDecl} {type : ResolvedType} (found : decls.lookup name = some decl)
    (defined : definitions.lookup name = some type) :
    ∃ last, ReflTransGen (LeadsOn decls (IsInvalid definitions)) name last ∧
      EndsIn package decls (IsInvalid definitions) last type.unalias := by
  obtain ⟨type', defined', ⟨heads, -⟩⟩ := all name decl found
  cases defined.symm.trans defined'
  -- On the aliases in front of the type: each is defined as the type behind it.
  fun_induction ResolvedType.unalias type generalizing name decl with
  | case1 other next target ih =>
    have valid := not_isInvalid defined (by simp)
    cases lead : decl.lead decls with
    | shape =>
      rw [lead] at heads
      cases heads with
      | shape shows =>
        have plain := ResolvedType.isAlias_unalias (.aliased other next target)
        rw [shows.plain] at plain
        cases plain
    | name text start =>
      rw [lead] at heads
      cases heads with
      | aliased found' second known =>
        obtain ⟨type', defined', ⟨heads', known'⟩⟩ := all next _ found'
        cases Option.some.inj (Option.some.inj (known.symm.trans (known' second)))
        obtain ⟨last, leads, ends⟩ := ih found' defined' defined' heads'
        exact ⟨last, .head ⟨valid, decl, start, found, lead⟩ leads, ends⟩
  | case2 type plain =>
    refine ⟨name, .refl, ?_⟩
    cases lead : decl.lead decls with
    | shape shape =>
      rw [lead] at heads
      cases heads with
      | shape shows =>
        by_cases none : IsInvalid definitions name
        · obtain ⟨text, held⟩ := none
          cases defined.symm.trans held
          exact .invalid ⟨text, held⟩
        · exact .shows none found lead shows
    | name other start =>
      rw [lead] at heads
      cases heads with
      | defined found' first =>
        exact .defined ⟨not_isInvalid defined (by simp), decl, start, found, lead⟩ found'
      | aliased found' second known => exact absurd rfl (plain _ _ _)
      | invalid => exact .invalid ⟨other, defined⟩

/-- The shape that is found within a limit is the one that is reached, if the limit leaves room for
all types that were not visited yet, and those that were lead to the type. -/
theorem shapeBehind_shapeWithin (all : AllDefined package decls after definitions) (limit : Nat)
    {visited : List String} {name : String} {decl : TypeDecl} {type : ResolvedType}
    (found : decls.lookup name = some decl) (defined : definitions.lookup name = some type)
    (room : definitions.length < limit + visited.length) (once : visited.Nodup)
    (among : ∀ other ∈ visited, (definitions.lookup other).isSome = true)
    (leads : ∀ other ∈ visited, ReflTransGen (LeadsOn decls (IsInvalid definitions)) other name) :
    ShapeBehind decls (IsInvalid definitions) name
      (shapeWithin package.path definitions limit visited type) := by
  -- On the limit: each definition that is followed is visited for the first time.
  induction limit generalizing visited name decl type with
  | zero =>
    have few := (List.subperm_of_subset once (subset_keys among)).length_le
    rw [List.length_map] at few
    omega
  | succ limit ih =>
    obtain ⟨last, onward, ends⟩ := exists_endsIn all found defined
    rw [shapeWithin]
    generalize type.unalias = bare at ends
    cases ends with
    | invalid none => exact .of_leadsOn onward (.invalid none)
    | shows valid found' lead own =>
      refine .of_leadsOn onward (.shows valid found' (lead.trans (congrArg ShapeLead.shape ?_)))
      rw [← own.own]
      cases bare with
      | named other =>
        dsimp only
        rw [if_pos (bne_iff_ne.mpr (own.foreign other rfl))]
        rfl
      | _ => rfl
    | @defined other args shape inner leads' found' =>
      dsimp only
      rw [if_neg (by simp)]
      have further : ReflTransGen (LeadsOn decls (IsInvalid definitions)) name other :=
        onward.tail leads'
      split
      case isTrue visit =>
        -- A type that was visited leads to this one, which leads back to it.
        have back := leads other (List.contains_iff_mem.mp visit)
        exact .of_leadsOn further (.circle (TransGen.tail' (back.trans onward) leads'))
      case isFalse new =>
        obtain ⟨type', defined', -⟩ := all other inner found'
        rw [defined']
        refine .of_leadsOn further (ih found' defined' ?_ ?_ ?_ ?_)
        · rw [List.length_cons]
          omega
        · exact List.nodup_cons.mpr ⟨fun old => new (List.contains_iff_mem.mpr old), once⟩
        · exact List.forall_mem_cons.mpr ⟨by rw [defined']; rfl, among⟩
        · exact List.forall_mem_cons.mpr ⟨.refl, fun old member => (leads old member).trans further⟩

end Follow

section Packages

variable {metadata : Metadata} {files : List SourceFile}

/-- The shapes that a package records for its declared types. -/
def recordedShapes (metadata : Metadata) (files : List SourceFile) : List (String × Shape) :=
  shapeTable metadata.path (resolvedIn metadata files).1

theorem lookup_recordedShapes {name : String} {type : ResolvedType}
    (defined : (resolvedIn metadata files).1.lookup name = some type) :
    (recordedShapes metadata files).lookup name = some (shapeWithin metadata.path
      (resolvedIn metadata files).1 ((resolvedIn metadata files).1.length + 1) [name] type) := by
  refine (lookup_map (fun name type => shapeWithin metadata.path (resolvedIn metadata files).1
    ((resolvedIn metadata files).1.length + 1) [name] type) name _).trans ?_
  rw [defined]
  rfl

/-- The shape that is recorded for a declared type is the one that is reached from it. -/
theorem recordedShapes_reached (abroad : NoneImports metadata.path files) {name : String}
    {decl : TypeDecl} (found : (typesIn metadata.deps files).lookup name = some decl) :
    ∃ shape, (recordedShapes metadata files).lookup name = some shape ∧
      ShapeBehind (typesIn metadata.deps files) (IsInvalid (resolvedIn metadata files).1) name
        shape := by
  -- The limit is one more than there are definitions, and only the type itself is visited yet.
  have all : AllDefined metadata.ref (typesIn metadata.deps files) (resolvedIn metadata files).2
      (resolvedIn metadata files).1 := fun name decl found => resolvedIn_define abroad found
  obtain ⟨type, defined, -⟩ := all name decl found
  refine ⟨_, lookup_recordedShapes defined, ?_⟩
  refine shapeBehind_shapeWithin all _ found defined ?_ (List.nodup_singleton name) ?_ ?_
  · rw [List.length_singleton]
    omega
  · exact List.forall_mem_singleton.mpr (by rw [defined]; rfl)
  · exact List.forall_mem_singleton.mpr .refl

/-- A declared type with an invalid definition is one of which nothing is known, or it is defined as
an alias that is reported to lead back to itself. -/
theorem lead_of_isInvalid (abroad : NoneImports metadata.path files) {name : String}
    {decl : TypeDecl} (found : (typesIn metadata.deps files).lookup name = some decl)
    (none : IsInvalid (resolvedIn metadata files).1 name) :
    decl.lead (typesIn metadata.deps files) = .shape .unknown ∨ ∃ other start,
      decl.lead (typesIn metadata.deps files) = .name other start ∧
        decl.scope.diagnostic start (.recursiveAlias other) ∈
          (Package.ofFiles metadata files).errors := by
  obtain ⟨text, held⟩ := none
  obtain ⟨type, defined, ⟨heads, -⟩⟩ := resolvedIn_define abroad found
  cases held.symm.trans defined
  cases lead : decl.lead (typesIn metadata.deps files) with
  | shape shape =>
    rw [lead] at heads
    cases heads with
    | shape shows => exact .inl (congrArg ShapeLead.shape shows.own.symm)
  | name other start =>
    rw [lead] at heads
    cases heads with
    | invalid found' second reported =>
      exact .inr ⟨_, start, rfl, resolvedIn_errors metadata files reported⟩

/-- What names stand for in the functions of a package. -/
def functionTable (metadata : Metadata) (files : List SourceFile) : TypeTable :=
  tableOf metadata (typesIn metadata.deps files)
    (TypeDecls.collect (scopedFiles metadata.deps files)).2

/-- A defined type of the package carries the shape that is recorded under its name. -/
def IsRecorded (metadata : Metadata) (files : List SourceFile) (held : NamedType) : Prop :=
  held.package.path = metadata.path →
    (recordedShapes metadata files).lookup held.name = some held.shape

/-- A type of another package has nothing to carry. -/
theorem foreignType_recorded {package : PackageRef} (foreign : package.path ≠ metadata.path)
    (name : String) :
    ∀ held ∈ (foreignType package name).mentions, IsRecorded metadata files held := by
  simp [foreignType, ResolvedType.mentions, NamedType.mentions, mentionsOfTypes, IsRecorded,
    foreign]

theorem undeclared_recorded {scope : FileScope} (lacks : scope.Lacks metadata.path)
    (params : List String) (name : String) (start : Nat) :
    Gives (((functionTable metadata files).names scope params).undeclared name start) fun type =>
      ∀ held ∈ type.mentions, IsRecorded metadata files held := by
  have dots : ((functionTable metadata files).names scope params).scope.dots = scope.dots := rfl
  unfold NameTable.undeclared
  rw [dots]
  split
  case h_1 => exact (Gives.trivial _).bind fun _ _ => .pure (by simp [ResolvedType.mentions])
  case h_2 package found =>
    exact .pure (foreignType_recorded (lacks.1 package (by simp [found])) name)
  case h_3 => exact .pure (by simp [ResolvedType.mentions])

/-- A declared name stands for a type with the shape that is recorded, or for an alias. -/
theorem declared_recorded (abroad : NoneImports metadata.path files) (scope : FileScope)
    (params : List String) {name : String} {decl : TypeDecl}
    (found : (typesIn metadata.deps files).lookup name = some decl) (start : Nat) :
    Gives (((functionTable metadata files).names scope params).declared name start decl) fun type =>
      ∀ held ∈ type.mentions, IsRecorded metadata files held := by
  -- What is declared is among the definitions, so a shape is recorded for it.
  obtain ⟨shape, recorded, -⟩ := recordedShapes_reached abroad found
  have here : ((functionTable metadata files).names scope params).shapes.lookup name = some shape :=
    recorded
  unfold NameTable.declared
  split
  case isTrue =>
    refine (Gives.trivial _).bind fun target _ => ?_
    cases target with
    | none => exact (Gives.trivial _).bind fun _ _ => .pure (by simp [ResolvedType.mentions])
    | some target => exact .pure (by simp [ResolvedType.mentions])
  case isFalse =>
    rw [here]
    refine .pure ?_
    rw [ResolvedType.mentions, NamedType.mentions, mentionsOfTypes]
    exact List.forall_mem_singleton.mpr fun _ => recorded

/-- The defined types of the package that names stand for carry the shapes that are recorded. -/
theorem names_recorded (abroad : NoneImports metadata.path files) {scope : FileScope}
    (lacks : scope.Lacks metadata.path) (params : List String) :
    ((functionTable metadata files).names scope params).NamesMention
      (IsRecorded metadata files) where
  plain name start := by
    have decls : ((functionTable metadata files).names scope params).decls =
        typesIn metadata.deps files := rfl
    -- In the order of the lookup: a type parameter, a declared type, a predeclared one, any other.
    unfold NameTable.resolveName
    rw [decls]
    split
    · exact .pure (by simp [ResolvedType.mentions])
    · cases found : (typesIn metadata.deps files).lookup name with
      | some decl => exact declared_recorded abroad scope params found start
      | none =>
        dsimp only
        split
        case h_1 type predeclared =>
          -- No predeclared type is a defined one.
          unfold predeclared? at predeclared
          split_ifs at predeclared <;> cases predeclared <;>
            exact .pure (by simp [ResolvedType.mentions])
        case h_2 => exact undeclared_recorded lacks params name start
  qualified package start name := by
    have named : ((functionTable metadata files).names scope params).scope.named = scope.named := rfl
    unfold NameTable.resolveQualified
    rw [named]
    split
    case h_1 other found => exact .pure (foreignType_recorded (lacks.2 package other found) name)
    case h_2 => exact (Gives.trivial _).bind fun _ _ => .pure (by simp [ResolvedType.mentions])

/-- The defined types of the package that a function mentions carry the shapes that are recorded. -/
theorem functions_recorded (abroad : NoneImports metadata.path files) {function : Function}
    (listed : function ∈ (Package.ofFiles metadata files).functions) :
    ∀ held ∈ function.mentions, IsRecorded metadata files held := by
  -- Each function is what a declaration resolves to by itself, in the scope of its file.
  rw [(ofFiles_isSettled metadata files).functions] at listed
  obtain ⟨entry, declared, found⟩ := List.mem_filterMap.mp listed
  obtain ⟨named, given, rfl⟩ := Option.map_eq_some_iff.mp found
  obtain ⟨file, among, here⟩ := List.mem_flatMap.mp declared
  obtain ⟨decl, -, rfl⟩ := List.mem_map.mp here
  have lacks : (FileScope.ofFile metadata.deps file).Lacks metadata.path :=
    ofFile_lacks (abroad file among)
  exact resolveOne_mentions (names_recorded abroad lacks) _ _ named given

/-- Shapes are recorded as the definitions have them. In a package whose files do not import its own
path, exactly one shape is reached from each declared type, and that one is recorded; a type with an
invalid definition is one of which nothing is known, or is reported to lead back to itself; and all
functions mention declared types with the shapes that are recorded. -/
theorem shapes_recorded (abroad : NoneImports metadata.path files) :
    (∀ name decl, (typesIn metadata.deps files).lookup name = some decl →
      ∃ shape, (recordedShapes metadata files).lookup name = some shape ∧
        ∀ other, ShapeBehind (typesIn metadata.deps files)
          (IsInvalid (resolvedIn metadata files).1) name other ↔ other = shape) ∧
    (∀ name decl, (typesIn metadata.deps files).lookup name = some decl →
      IsInvalid (resolvedIn metadata files).1 name →
        decl.lead (typesIn metadata.deps files) = .shape .unknown ∨ ∃ other start,
          decl.lead (typesIn metadata.deps files) = .name other start ∧
            decl.scope.diagnostic start (.recursiveAlias other) ∈
              (Package.ofFiles metadata files).errors) ∧
    ∀ function ∈ (Package.ofFiles metadata files).functions, ∀ held ∈ function.mentions,
      held.package.path = metadata.path →
        (recordedShapes metadata files).lookup held.name = some held.shape := by
  refine ⟨fun name decl found => ?_, fun name decl found => lead_of_isInvalid abroad found,
    fun function listed => functions_recorded abroad listed⟩
  obtain ⟨shape, recorded, reached⟩ := recordedShapes_reached abroad found
  refine ⟨shape, recorded, fun other => ⟨fun behind => behind.unique reached, ?_⟩⟩
  rintro rfl
  exact reached

/-- Files with a chain of definitions through both of them, which ends in another package, and with
a circle of two types. -/
def chained : List SourceFile :=
  [.ofText ⟨"/ws/p/a.go"⟩ "package p\n\ntype N A\n\ntype L M\n\nfunc F(n N, l *L) \x7b\x7d\n",
    .ofText ⟨"/ws/p/b.go"⟩
      "package p\n\nimport \"time\"\n\ntype A = B\n\ntype B time.Duration\n\ntype M L\n"]

/-- A chain through an alias and two files, and a circle, have the shapes that are recorded. -/
theorem shapes_recorded_chained :
    NoneImports metadataOfTwo.path chained ∧
      ShapeBehind (typesIn metadataOfTwo.deps chained)
        (IsInvalid (resolvedIn metadataOfTwo chained).1) "N" (.basic "int64") ∧
      ShapeBehind (typesIn metadataOfTwo.deps chained)
        (IsInvalid (resolvedIn metadataOfTwo chained).1) "L" .unknown ∧
      (Package.ofFiles metadataOfTwo chained).functions.map (fun function =>
          function.mentions.map fun held => (held.name, held.shape)) =
        [[("N", .basic "int64"), ("L", .unknown)]] := by
  have abroad : NoneImports metadataOfTwo.path chained := by
    unfold NoneImports
    decide +kernel
  obtain ⟨chain, circle⟩ :
      ((typesIn metadataOfTwo.deps chained).lookup "N").isSome = true ∧
        ((typesIn metadataOfTwo.deps chained).lookup "L").isSome = true := by
    decide +kernel
  obtain ⟨first, second⟩ :
      (recordedShapes metadataOfTwo chained).lookup "N" = some (.basic "int64") ∧
        (recordedShapes metadataOfTwo chained).lookup "L" = some .unknown := by
    decide +kernel
  obtain ⟨reached, -, -⟩ := shapes_recorded abroad
  refine ⟨abroad, ?_, ?_, by decide +kernel⟩
  · obtain ⟨decl, found⟩ := Option.isSome_iff_exists.mp chain
    obtain ⟨shape, recorded, only⟩ := reached "N" decl found
    exact (only _).mpr (Option.some.inj (first.symm.trans recorded))
  · obtain ⟨decl, found⟩ := Option.isSome_iff_exists.mp circle
    obtain ⟨shape, recorded, only⟩ := reached "L" decl found
    exact (only _).mpr (Option.some.inj (second.symm.trans recorded))

end Packages

end Scaffold.Go
