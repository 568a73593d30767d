import Scaffold.Proofs.Go.Functions

/-! The undefined names of a package are its uses of names that nothing in sight goes by. -/

namespace Scaffold.Go

/-- The names of the types that count as predeclared. -/
def predeclaredNames : List String :=
  "error" :: "any" :: basicNames

/-- A name used in a type expression of a file, where some type parameters are in scope. -/
structure Occurrence where
  file : SourceFile
  params : List String
  use : NameUse

/-- The names used in the declarations that count and in the functions of some files. -/
def occurrences (files : List SourceFile) : List Occurrence :=
  ((countedTypes files).flatMap fun type =>
    type.2.type.uses.map fun use => ⟨type.1, type.2.params, use⟩) ++
  files.flatMap fun file => file.funcDecls.flatMap fun decl =>
    (decl.uses (declaresType files) (definesType files)).map fun use => ⟨file, use.1, use.2⟩

/-- Whether nothing in sight of a use goes by its name: for a plain name no type parameter, no
declared or predeclared type and no dot import that may bring it in; for the name of a package
none of the imports of the file. -/
def Occurrence.isUnresolved (known : List (String × String)) (files : List SourceFile)
    (occurrence : Occurrence) : Bool :=
  match occurrence.use with
  | .plain name _ => !(occurrence.params.contains name || declaresType files name ||
    predeclaredNames.contains name || occurrence.file.imports.any ImportSpec.isDot)
  | .package name _ => !occurrence.file.imports.any (ImportSpec.binds known name)

/-- The error for an undefined name. -/
def Occurrence.diagnostic (occurrence : Occurrence) : Diagnostic :=
  ⟨occurrence.file.path, occurrence.file.lines.position occurrence.use.start,
    .undefined occurrence.use.name⟩

/-- The predeclared names are those that stand for a predeclared type. -/
theorem predeclared?_isNone (name : String) :
    (predeclared? name).isNone = !predeclaredNames.contains name := by
  rw [predeclared?, predeclaredNames, List.contains_cons, List.contains_cons, ← isBasicName]
  cases name == "error" <;> cases name == "any" <;> cases isBasicName name <;> rfl

variable {known : List (String × String)} {files : List SourceFile} {decls : TypeDecls}

/-- Looking a name up in the scope of a file tells whether it is resolved in that file. -/
theorem isUnknown_eq (declares : decls.declares = declaresType files) (occurrence : Occurrence) :
    occurrence.use.isUnknown decls (FileScope.ofFile known occurrence.file) occurrence.params =
      occurrence.isUnresolved known files := by
  -- The scope holds the dot imports and the bound names of the file, and no more.
  obtain ⟨file, params, use⟩ := occurrence
  have sees := ofFile_sees known file
  cases use with
  | plain name start =>
    have dots : (FileScope.ofFile known file).dots.isEmpty =
        !file.imports.any ImportSpec.isDot := by
      rw [sees.dots]
      rfl
    simp only [NameUse.isUnknown, Occurrence.isUnresolved, declares, dots, predeclared?_isNone,
      Bool.not_or]
  | package name start =>
    simp only [NameUse.isUnknown, Occurrence.isUnresolved]
    rw [← Option.not_isSome, sees.named]
    rfl

/-- The scope of a file places errors in that file. -/
theorem diagnostic_eq (occurrence : Occurrence) :
    (FileScope.ofFile known occurrence.file).diagnostic occurrence.use.start
      (.undefined occurrence.use.name) = occurrence.diagnostic :=
  ofFile_diagnostic known occurrence.file _ _

/-- The errors for the unresolved ones among some occurrences. -/
def undefinedAmong (known : List (String × String)) (files : List SourceFile)
    (occurrences : List Occurrence) : List Diagnostic :=
  (occurrences.filter (Occurrence.isUnresolved known files)).map Occurrence.diagnostic

theorem undefinedAmong_append (first second : List Occurrence) :
    undefinedAmong known files (first ++ second) =
      undefinedAmong known files first ++ undefinedAmong known files second := by
  rw [undefinedAmong, List.filter_append, List.map_append]
  rfl

theorem undefinedAmong_flatMap {α : Type} (items : List α) (f : α → List Occurrence) :
    undefinedAmong known files (items.flatMap f) =
      items.flatMap fun item => undefinedAmong known files (f item) := by
  rw [undefinedAmong, List.filter_flatMap, List.map_flatMap]
  rfl

/-- The unknown names of some type parameters' scope are the unresolved ones among its uses. -/
theorem unknownIn_eq_undefinedAmong (declares : decls.declares = declaresType files)
    (file : SourceFile) (params : List String) (uses : List NameUse) :
    unknownIn decls (FileScope.ofFile known file) params uses =
      undefinedAmong known files (uses.map fun use => ⟨file, params, use⟩) := by
  -- Both sides filter and map one list of uses.
  rw [unknownIn, undefinedAmong, List.filter_map, List.map_map]
  have alike : NameUse.isUnknown decls (FileScope.ofFile known file) params =
      Occurrence.isUnresolved known files ∘ fun use => ⟨file, params, use⟩ := by
    funext use
    exact isUnknown_eq declares ⟨file, params, use⟩
  rw [← alike]
  exact List.map_congr_left fun use _ => diagnostic_eq ⟨file, params, use⟩

/-- The unknown names in a function are the unresolved ones among its uses. -/
theorem unknownOf_eq_undefinedAmong (declares : decls.declares = declaresType files)
    (defines : decls.defines = definesType files) (file : SourceFile) (decl : FuncDecl) :
    unknownOf decls (FileScope.ofFile known file) decl =
      undefinedAmong known files ((decl.uses (declaresType files) (definesType files)).map
        fun use => ⟨file, use.1, use.2⟩) := by
  rw [unknownOf, unknownAmong, declares, defines, List.map_eq_flatMap, undefinedAmong_flatMap]
  refine List.flatMap_congr fun use _ => ?_
  exact unknownIn_eq_undefinedAmong declares file use.1 [use.2]

/-- What declarations owe is what the counted ones among those of the files owe. -/
theorem owed_perm (kept : decls.Perm ((countedTypes files).map (keptType known)))
    (ordered : InKeyOrder decls) (declares : decls.declares = declaresType files) :
    (decls.flatMap fun entry => owedBy decls entry.1).Perm
      (undefinedAmong known files ((countedTypes files).flatMap fun type =>
        type.2.type.uses.map fun use => ⟨type.1, type.2.params, use⟩)) := by
  -- In key order, every declaration is the one its name is looked up to.
  have owed : (decls.flatMap fun entry => owedBy decls entry.1) = decls.flatMap fun entry =>
      unknownIn decls entry.2.scope entry.2.spec.params entry.2.spec.type.uses := by
    refine List.flatMap_congr fun entry member => ?_
    exact owedBy_eq (lookup_of_mem ordered member)
  rw [owed, undefinedAmong_flatMap]
  refine (kept.flatMap_right _).trans (.of_eq ?_)
  rw [List.flatMap_map]
  exact List.flatMap_congr fun type _ =>
    unknownIn_eq_undefinedAmong declares type.1 type.2.params type.2.type.uses

/-- The unknown names in all functions are the unresolved ones among their uses. -/
theorem unknownOf_functions (declares : decls.declares = declaresType files)
    (defines : decls.defines = definesType files) :
    (((scopedFiles known files).flatMap fun source =>
      source.2.funcDecls.map fun decl => (source.1, decl)).flatMap fun entry =>
        unknownOf decls entry.1 entry.2) =
      undefinedAmong known files (files.flatMap fun file => file.funcDecls.flatMap fun decl =>
        (decl.uses (declaresType files) (definesType files)).map
          fun use => ⟨file, use.1, use.2⟩) := by
  rw [scopedFiles, List.flatMap_map, List.flatMap_assoc, undefinedAmong_flatMap]
  refine List.flatMap_congr fun file _ => ?_
  rw [List.flatMap_map, undefinedAmong_flatMap]
  exact List.flatMap_congr fun decl _ => unknownOf_eq_undefinedAmong declares defines file decl

/-- The undefined names that a package reports are its unresolved occurrences, each once. -/
theorem undefined_perm_unresolved (metadata : Metadata) (files : List SourceFile) :
    ((Package.ofFiles metadata files).errors.filter Diagnostic.isUndefined).Perm
      (((occurrences files).filter (Occurrence.isUnresolved metadata.deps files)).map
        Occurrence.diagnostic) := by
  have ordered := inKeyOrder_collect metadata.deps files
  have kept := collect_perm metadata.deps files
  have declares := declares_collect metadata.deps files
  have defines := defines_collect metadata.deps files
  -- The run finds what the declarations owe and what the functions use.
  have found := resolveAll_found metadata.ref ordered (shapeTable metadata.path)
    ((scopedFiles metadata.deps files).flatMap fun source =>
      source.2.funcDecls.map fun decl => (source.1, decl))
    (TypeDecls.collect (scopedFiles metadata.deps files)).2
  rw [errors_collect, List.nil_append] at found
  refine List.Perm.trans found ?_
  -- The package keeps its declarations in the order of names, the files have them in theirs.
  rw [← undefinedAmong, occurrences, undefinedAmong_append]
  exact (owed_perm kept ordered declares).append (.of_eq (unknownOf_functions declares defines))

/-- The name `comparable` is predeclared as well, but it is looked for nowhere: a package that uses
it in an interface is reported for it. -/
theorem undefined_comparable :
    let package := Package.ofFiles ⟨"example.com/ws/p", "example.com/ws/p", "p", []⟩
      [.ofText ⟨"/ws/p/p.go"⟩ "package p\n\ntype C interface\x7b comparable \x7d\n"]
    package.isBroken = false ∧
      package.errors = [⟨⟨"/ws/p/p.go"⟩, ⟨2, 18⟩, .undefined "comparable"⟩] := by
  decide +kernel

end Scaffold.Go
