import Scaffold.Go.Scope
import Scaffold.Proofs.Keyed

/-! What a package declares, and what the imports of its files bring into sight. -/

namespace Scaffold.Go

/-- Whether an error is that of an undefined name. -/
def Diagnostic.isUndefined (diagnostic : Diagnostic) : Bool :=
  match diagnostic.error with
  | .undefined _ => true
  | _ => false

/-- Whether a package declares a type or an alias of a name. -/
def TypeDecls.declares (decls : TypeDecls) (name : String) : Bool :=
  (decls.lookup name).isSome

/-- Whether a package defines a type of a name, aliases left out. -/
def TypeDecls.defines (decls : TypeDecls) (name : String) : Bool :=
  (decls.lookup name).any fun decl => !decl.spec.isAlias

section Declared

/-- The declared types and aliases of some files in source order, each with its file. -/
def declaredTypes (files : List SourceFile) : List (SourceFile × TypeSpec) :=
  files.flatMap fun file => file.typeSpecs.map fun spec => (file, spec)

/-- The declarations that count: the first one of each name that is not blank. -/
def countedTypes (files : List SourceFile) : List (SourceFile × TypeSpec) :=
  ((declaredTypes files).filter fun type => type.2.name != "_").eraseDupsBy
    fun later first => later.2.name == first.2.name

/-- Whether some file declares a type or an alias of a name. -/
def declaresType (files : List SourceFile) (name : String) : Bool :=
  name != "_" && files.any fun file => file.typeSpecs.any fun spec => spec.name == name

/-- Whether the declaration of a name that counts is that of a type, and not of an alias. -/
def definesType (files : List SourceFile) (name : String) : Bool :=
  (countedTypes files).any fun type => type.2.name == name && !type.2.isAlias

/-- A declaration as the package keeps it. -/
def keptType (known : List (String × String)) (type : SourceFile × TypeSpec) :
    String × TypeDecl :=
  (type.2.name, ⟨FileScope.ofFile known type.1, type.2⟩)

/-- The declarations with those of some files added in source order. -/
def addTypes (known : List (String × String)) (decls : TypeDecls × List Diagnostic)
    (types : List (SourceFile × TypeSpec)) : TypeDecls × List Diagnostic :=
  types.foldl (fun decls type => TypeDecls.add decls (FileScope.ofFile known type.1) type.2) decls

/-- Files with what their names refer to. -/
def scopedFiles (known : List (String × String)) (files : List SourceFile) :
    List (FileScope × SourceFile) :=
  files.map fun file => (FileScope.ofFile known file, file)

/-- Collecting goes through all declarations in source order, whatever file they stand in. -/
theorem collect_eq (known : List (String × String)) (files : List SourceFile) :
    TypeDecls.collect (scopedFiles known files) =
      addTypes known ([], []) (declaredTypes files) := by
  rw [TypeDecls.collect, scopedFiles, addTypes, declaredTypes, List.foldl_flatMap, List.foldl_map]
  simp only [List.foldl_map]

variable {known : List (String × String)} {decls : TypeDecls × List Diagnostic}
  {type : SourceFile × TypeSpec}

/-- Whether a declaration is a new one: its name is not blank and not declared yet. -/
def isNewType (decls : TypeDecls) (type : SourceFile × TypeSpec) : Bool :=
  type.2.name != "_" && !decls.declares type.2.name

/-- A new declaration is kept under its name. -/
theorem add_of_new (new : isNewType decls.1 type = true) :
    TypeDecls.add decls (FileScope.ofFile known type.1) type.2 =
      (insertKeyed type.2.name (keptType known type).2 decls.1, decls.2) := by
  simp only [isNewType, Bool.and_eq_true, bne_iff_ne, ne_eq, TypeDecls.declares,
    Bool.not_eq_true'] at new
  rw [TypeDecls.add, if_neg (by simpa using new.1), if_neg (by simp [new.2])]
  rfl

/-- A declaration that is not new leaves those that are kept as they are. -/
theorem add_of_old (old : isNewType decls.1 type = false) :
    (TypeDecls.add decls (FileScope.ofFile known type.1) type.2).1 = decls.1 := by
  rw [TypeDecls.add]
  split
  · rfl
  · split
    · rfl
    · rename_i blank held
      simp_all [isNewType, TypeDecls.declares]

/-- A declaration is reported at most as a repeated one, never as undefined. -/
theorem errors_add (decls : TypeDecls × List Diagnostic) (scope : FileScope) (spec : TypeSpec) :
    (TypeDecls.add decls scope spec).2.filter Diagnostic.isUndefined =
      decls.2.filter Diagnostic.isUndefined := by
  rw [TypeDecls.add]
  split
  · rfl
  · split
    · rw [List.filter_append]
      exact List.append_nil _
    · rfl

/-- Declarations are never reported as undefined. -/
theorem errors_addTypes (types : List (SourceFile × TypeSpec)) :
    (addTypes known decls types).2.filter Diagnostic.isUndefined =
      decls.2.filter Diagnostic.isUndefined := by
  induction types generalizing decls with
  | nil => rfl
  | cons type rest ih => rw [addTypes, List.foldl_cons, ← addTypes, ih, errors_add]

/-- Adding declarations keeps them in the order of names. -/
theorem inKeyOrder_addTypes (ordered : InKeyOrder decls.1) (types : List (SourceFile × TypeSpec)) :
    InKeyOrder (addTypes known decls types).1 := by
  induction types generalizing decls with
  | nil => exact ordered
  | cons type rest ih =>
    rw [addTypes, List.foldl_cons, ← addTypes]
    cases new : isNewType decls.1 type with
    | true =>
      rw [add_of_new new]
      exact ih (inKeyOrder_insertKeyed _ _ ordered)
    | false => exact ih (by rwa [add_of_old new])

theorem declares_insertKeyed (decls : TypeDecls) (key : String) (decl : TypeDecl) (name : String) :
    TypeDecls.declares (insertKeyed key decl decls) name =
      (name == key || decls.declares name) := by
  rw [TypeDecls.declares, TypeDecls.declares, Bool.eq_iff_iff, isSome_lookup_insertKeyed,
    Bool.or_eq_true, beq_iff_eq]

/-- Behind a new declaration, those are new that were so before and have another name. -/
theorem isNewType_insertKeyed (decls : TypeDecls) (first : TypeSpec) (decl : TypeDecl)
    (type : SourceFile × TypeSpec) :
    isNewType (insertKeyed first.name decl decls) type =
      (decide ((type.2.name == first.name) = false) && isNewType decls type) := by
  rw [isNewType, isNewType, declares_insertKeyed]
  cases type.2.name == first.name <;> simp

/-- The declarations are those from before, and the first one of each new name. -/
theorem addTypes_perm (types : List (SourceFile × TypeSpec)) :
    (addTypes known decls types).1.Perm
      (decls.1 ++ ((types.filter (isNewType decls.1)).eraseDupsBy fun later first =>
        later.2.name == first.2.name).map (keptType known)) := by
  -- On the declarations: a new one makes all later ones of its name old.
  induction types generalizing decls with
  | nil => simp [addTypes]
  | cons type rest ih =>
    rw [addTypes, List.foldl_cons, ← addTypes]
    refine ih.trans ?_
    cases new : isNewType decls.1 type with
    | false => rw [List.filter_cons, new, if_neg Bool.false_ne_true, add_of_old new]
    | true =>
      have others : rest.filter (isNewType (insertKeyed type.2.name (keptType known type).2 decls.1)) =
          (rest.filter (isNewType decls.1)).filter fun later =>
            decide ((later.2.name == type.2.name) = false) := by
        rw [List.filter_filter]
        exact List.filter_congr fun later _ => isNewType_insertKeyed _ _ _ _
      rw [List.filter_cons, new, if_pos rfl, List.eraseDupsBy_cons, add_of_new new, others,
        List.map_cons]
      have unknown : decls.1.lookup type.2.name = none := by
        simp only [isNewType, TypeDecls.declares, Bool.and_eq_true, Bool.not_eq_true'] at new
        exact Option.isSome_eq_false_iff.mp new.2 |> Option.isNone_iff_eq_none.mp
      -- The new declaration moves from behind those kept before to their midst.
      exact ((insertKeyed_perm_of_new unknown).append_right _).trans List.perm_middle.symm

/-- A package keeps the declarations that count, in the order of names. -/
theorem collect_perm (known : List (String × String)) (files : List SourceFile) :
    (TypeDecls.collect (scopedFiles known files)).1.Perm
      ((countedTypes files).map (keptType known)) := by
  have plain : isNewType [] = fun type => type.2.name != "_" := by
    funext type
    exact Bool.and_true _
  rw [collect_eq, countedTypes, ← plain]
  exact addTypes_perm _

theorem inKeyOrder_collect (known : List (String × String)) (files : List SourceFile) :
    InKeyOrder (TypeDecls.collect (scopedFiles known files)).1 := by
  rw [collect_eq]
  have empty : InKeyOrder (([], []) : TypeDecls × List Diagnostic).1 := List.Pairwise.nil
  exact inKeyOrder_addTypes empty _

/-- Collecting declarations reports none of their names as undefined. -/
theorem errors_collect (known : List (String × String)) (files : List SourceFile) :
    (TypeDecls.collect (scopedFiles known files)).2.filter Diagnostic.isUndefined = [] := by
  rw [collect_eq, errors_addTypes]
  rfl

/-- Adding a declaration declares its name, unless that is blank. -/
theorem declares_add (decls : TypeDecls × List Diagnostic) (type : SourceFile × TypeSpec)
    (name : String) :
    (TypeDecls.add decls (FileScope.ofFile known type.1) type.2).1.declares name =
      (decls.1.declares name || type.2.name != "_" && type.2.name == name) := by
  cases new : isNewType decls.1 type with
  | true =>
    rw [add_of_new new, declares_insertKeyed, Bool.or_comm, BEq.comm,
      (Bool.and_eq_true_iff.mp new).1, Bool.true_and]
  | false =>
    rw [add_of_old new]
    rcases Bool.and_eq_false_iff.mp new with blank | held
    · rw [blank, Bool.false_and, Bool.or_false]
    · by_cases same : type.2.name = name
      · rw [← same, Bool.not_eq_eq_eq_not.mp held, Bool.not_false, Bool.true_or]
      · rw [beq_false_of_ne same, Bool.and_false, Bool.or_false]

/-- Adding declarations declares the names that they have. -/
theorem declares_addTypes (types : List (SourceFile × TypeSpec)) (name : String) :
    (addTypes known decls types).1.declares name =
      (decls.1.declares name || types.any fun type => type.2.name != "_" && type.2.name == name) := by
  induction types generalizing decls with
  | nil => exact (Bool.or_false _).symm
  | cons type rest ih =>
    rw [addTypes, List.foldl_cons, ← addTypes, ih, declares_add, List.any_cons, Bool.or_assoc]

/-- A package declares the names that its files declare. -/
theorem declares_collect (known : List (String × String)) (files : List SourceFile) :
    (TypeDecls.collect (scopedFiles known files)).1.declares = declaresType files := by
  funext name
  have among : ((declaredTypes files).any fun type =>
      type.2.name != "_" && type.2.name == name) = declaresType files name := by
    rw [Bool.eq_iff_iff]
    simp only [declaredTypes, declaresType, List.any_eq_true, List.mem_flatMap, List.mem_map,
      Bool.and_eq_true, bne_iff_ne, beq_iff_eq]
    constructor
    · rintro ⟨_, ⟨file, member, spec, listed, rfl⟩, named, rfl⟩
      exact ⟨named, file, member, spec, listed, rfl⟩
    · rintro ⟨named, file, member, spec, listed, rfl⟩
      exact ⟨_, ⟨file, member, spec, listed, rfl⟩, named, rfl⟩
  rw [collect_eq, declares_addTypes, among]
  rfl

/-- A package defines the names that its counted declarations define. -/
theorem defines_collect (known : List (String × String)) (files : List SourceFile) :
    (TypeDecls.collect (scopedFiles known files)).1.defines = definesType files := by
  funext name
  have kept := collect_perm known files
  rw [TypeDecls.defines, definesType, Bool.eq_iff_iff, Option.any_eq_true, List.any_eq_true]
  simp only [Bool.and_eq_true, beq_iff_eq]
  constructor
  · rintro ⟨decl, found, first⟩
    obtain ⟨type, counted, same⟩ := List.mem_map.mp (kept.mem_iff.mp (mem_of_lookup found))
    cases same
    exact ⟨type, counted, rfl, first⟩
  · rintro ⟨type, counted, rfl, first⟩
    have member := kept.mem_iff.mpr (List.mem_map_of_mem counted)
    exact ⟨_, lookup_of_mem (inKeyOrder_collect known files) member, first⟩

end Declared

section Scopes

variable {known : List (String × String)}

/-- Whether an import binds a name to the package it imports. -/
def ImportSpec.binds (known : List (String × String)) (name : String) (spec : ImportSpec) : Bool :=
  !spec.isBlank && !spec.isDot &&
    spec.name.getD (FileScope.declaredName known spec.path) == name

/-- A scope with some more imports. -/
structure FileScope.Sees (known : List (String × String)) (before : FileScope)
    (specs : List ImportSpec) (after : FileScope) : Prop where
  path : after.path = before.path
  lines : after.lines = before.lines
  dots : after.dots.isEmpty = (before.dots.isEmpty && !specs.any ImportSpec.isDot)
  named : ∀ name, (after.named.lookup name).isSome =
    ((before.named.lookup name).isSome || specs.any (ImportSpec.binds known name))

/-- Binding an import makes the scope see it. -/
theorem FileScope.bind_sees (known : List (String × String)) (scope : FileScope)
    (spec : ImportSpec) : Sees known scope [spec] (bind known scope spec) := by
  unfold bind
  cases blank : spec.isBlank with
  | true =>
    -- One import cannot be blank and a dot import at once.
    have other : spec.isDot = false := by
      rw [ImportSpec.isDot, beq_iff_eq.mp blank]
      rfl
    exact ⟨rfl, rfl, by simp [other], by simp [ImportSpec.binds, blank]⟩
  | false =>
    cases dot : spec.isDot with
    | true => exact ⟨rfl, rfl, by simp [dot], by simp [ImportSpec.binds, dot]⟩
    | false =>
      refine ⟨rfl, rfl, by simp [dot], fun name => ?_⟩
      simp only [ImportSpec.binds, blank, dot, List.any_cons, List.any_nil, Bool.or_false,
        Bool.not_false, Bool.true_and, if_neg Bool.false_ne_true]
      by_cases same : name = spec.name.getD (declaredName known spec.path)
      · simp [same]
      · simp [List.lookup_cons, beq_false_of_ne same, beq_false_of_ne (Ne.symm same)]

/-- Binding imports in turn makes the scope see all of them. -/
theorem FileScope.foldl_bind_sees (known : List (String × String)) (specs : List ImportSpec)
    (scope : FileScope) : Sees known scope specs (specs.foldl (bind known) scope) := by
  induction specs generalizing scope with
  | nil => exact ⟨rfl, rfl, by simp, by simp⟩
  | cons spec rest ih =>
    have first := bind_sees known scope spec
    have later := ih (bind known scope spec)
    exact ⟨later.path.trans first.path, later.lines.trans first.lines,
      by rw [List.foldl_cons, later.dots, first.dots]; simp [Bool.and_assoc],
      fun name => by rw [List.foldl_cons, later.named, first.named]; simp [Bool.or_assoc]⟩

/-- The scope of a file sees its imports and nothing else. -/
theorem ofFile_sees (known : List (String × String)) (file : SourceFile) :
    FileScope.Sees known ⟨file.path, file.lines, [], []⟩ file.imports
      (FileScope.ofFile known file) :=
  FileScope.foldl_bind_sees known file.imports _

/-- What is reported in the scope of a file is reported at its path and positions. -/
theorem ofFile_diagnostic (known : List (String × String)) (file : SourceFile) (offset : Nat)
    (error : TypeError) : (FileScope.ofFile known file).diagnostic offset error =
      ⟨file.path, file.lines.position offset, error⟩ := by
  rw [FileScope.diagnostic, (ofFile_sees known file).path, (ofFile_sees known file).lines]

end Scopes

end Scaffold.Go
