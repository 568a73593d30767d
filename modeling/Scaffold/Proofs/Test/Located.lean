import Scaffold.Proofs.Go.Enclosing
import Scaffold.Proofs.Test.Addition

/-! Which function a test is for: the declaration around the location, whatever part is pointed at. -/

namespace Scaffold

open Go

section Workspace

variable {workspace : Workspace (Except Failure)}

/-- Sources are read from the paths that were given. -/
theorem path_of_mem_readSources {paths : List FilePath} {files : List SourceFile}
    (gathered : readSources workspace paths = .ok files) {file : SourceFile}
    (member : file ∈ files) : file.path ∈ paths := by
  -- A path with a text gives one file, a path without one gives none.
  induction paths generalizing files with
  | nil =>
    cases gathered
    cases member
  | cons path rest ih =>
    obtain ⟨text, -, next⟩ := Except.of_bind_eq_ok gathered
    cases text with
    | none => exact List.mem_cons_of_mem _ (ih next member)
    | some text =>
      obtain ⟨others, read, same⟩ := Except.of_bind_eq_ok next
      cases same
      rcases List.mem_cons.mp member with rfl | later
      · exact List.mem_cons_self
      · exact List.mem_cons_of_mem _ (ih read later)

/-- The file of a loaded package at the path it was loaded for is the one that is there. -/
theorem file_of_loadPackage {path : FilePath} {text : String} {package : Package}
    {file : SourceFile} (read : workspace.read path = .ok (some text))
    (loaded : loadPackage workspace path = .ok package) (found : package.file? path = some file) :
    file = .ofText path text := by
  obtain ⟨held, here, next⟩ := Except.of_bind_eq_ok loaded
  rw [read] at here
  cases here
  dsimp only at next
  split at next
  · cases next
  · obtain ⟨listed, -, next⟩ := Except.of_bind_eq_ok next
    obtain ⟨siblings, gathered, next⟩ := Except.of_bind_eq_ok next
    obtain ⟨metadata, -, made⟩ := Except.of_bind_eq_ok next
    cases made
    -- No other file that is read lies at the path.
    have same := List.find?_some found
    have member := (sortOrdered_perm _ _).mem_iff.mp (List.mem_of_find?_eq_some found)
    rcases List.mem_append.mp member with other | own
    · have among := path_of_mem_readSources gathered (List.mem_filter.mp other).1
      have elsewhere := (List.mem_filter.mp among).2
      simp [same] at elsewhere
    · exact List.mem_singleton.mp own

end Workspace

/-- A subject that is opened is the file of its package at the path. -/
theorem file_of_openSubject {package : Package} {path : FilePath} {subject : Subject}
    (opened : openSubject package path = .ok subject) : package.file? path = some subject.file := by
  obtain ⟨⟨⟩, -, opened⟩ := Except.of_bind_eq_ok opened
  split at opened
  · cases opened
  · rename_i file found
    obtain ⟨imports, -, made⟩ := Except.of_bind_eq_ok opened
    cases made
    exact found

/-- Whether a declaration covers a stretch given by lines and columns. -/
def Go.FuncDecl.CoversRange (decl : FuncDecl) (text : String) (range : Range) : Prop :=
  ∃ start stop, (LineIndex.ofText text).offsets range = .ok (start, stop) ∧
    decl.Covers start stop

/-- A stretch that is given by lines and columns runs forward. -/
theorem LineIndex.le_of_offsets {index : LineIndex} {range : Range} {start stop : Nat}
    (found : index.offsets range = .ok (start, stop)) : start ≤ stop := by
  obtain ⟨first, -, next⟩ := Except.of_bind_eq_ok found
  obtain ⟨last, -, next⟩ := Except.of_bind_eq_ok next
  split at next
  · cases next
  · rename_i forward
    cases next
    omega

/-- Any stretch inside a declaration leads to it. -/
theorem targetOf_of_covers {path : FilePath} {text : String} {subject : Subject}
    (file : subject.file = .ofText path text)
    (unbroken : (SourceFile.ofText path text).broken = false) {decl : FuncDecl}
    (declared : decl ∈ (SourceFile.ofText path text).funcDecls) {range : Range}
    (covers : decl.CoversRange text range) :
    targetOf subject range = match subject.package.functionAt? path decl.start with
      | none => .error (.untypedDeclaration path decl.row)
      | some function => .ok function := by
  obtain ⟨start, stop, offsets, covers⟩ := covers
  have around := (enclosing?_eq_some_iff unbroken (LineIndex.le_of_offsets offsets)).mpr
    ⟨declared, covers⟩
  have lines : (SourceFile.ofText path text).lines = LineIndex.ofText text := rfl
  rw [targetOf, file, lines, offsets]
  simp only [around]
  rfl

/--
The declaration around a place is the one function or method that covers it.

The test that is added depends on the declaration only, not on the place inside it.
-/
theorem enclosing_covers {path : FilePath} {text : String}
    (unbroken : (SourceFile.ofText path text).broken = false) :
    (∀ (start stop : Nat) (decl : FuncDecl), start ≤ stop →
      ((SourceFile.ofText path text).enclosing? start stop = some decl ↔
        decl ∈ (SourceFile.ofText path text).funcDecls ∧ decl.Covers start stop)) ∧
    (∀ decl ∈ (SourceFile.ofText path text).funcDecls,
      ∀ other ∈ (SourceFile.ofText path text).funcDecls, ∀ start stop : Nat,
        decl.Covers start stop → other.Covers start stop → decl = other) ∧
    ∀ workspace : Workspace (Except Failure), workspace.read path = .ok (some text) →
      ∀ decl ∈ (SourceFile.ofText path text).funcDecls, ∀ first second : Range,
        decl.CoversRange text first → decl.CoversRange text second →
          addTest workspace ⟨path, first⟩ = addTest workspace ⟨path, second⟩ := by
  refine ⟨fun start stop decl forward => enclosing?_eq_some_iff unbroken forward,
    fun decl declared other alsoDeclared start stop =>
      eq_of_covers unbroken declared alsoDeclared, ?_⟩
  intro workspace read decl declared first second firstCovers secondCovers
  -- Nothing but the choice of the function looks at the stretch.
  rw [addTest, addTest]
  cases loaded : loadPackage workspace path with
  | error failure => rfl
  | ok package =>
    cases opened : openSubject package path with
    | error failure => simp only [bind, Except.bind, opened]; rfl
    | ok subject =>
      have file := file_of_loadPackage read loaded (file_of_openSubject opened)
      have same : targetOf subject first = targetOf subject second := by
        rw [targetOf_of_covers file unbroken declared firstCovers,
          targetOf_of_covers file unbroken declared secondCovers]
      simp only [bind, Except.bind, opened, ofExcept_self, testChanges, same]

/-- A file with a function literal inside a function, and a comment behind that. -/
def nestedText : String :=
  "package p\nfunc F() \x7b\n\tg := func() \x7b\x7d\n\tg()\n\x7d // F\nfunc G() \x7b\x7d"

/-- A module with that file. -/
def nestedFunction : FileTree :=
  ⟨[(⟨"go.mod"⟩, "module m"), (⟨"p.go"⟩, nestedText)]⟩

/-- The test is the same whether the keyword or the literal inside is pointed at. -/
theorem enclosing_covers_nested : (SourceFile.ofText ⟨"p.go"⟩ nestedText).broken = false ∧
    addTest (nestedFunction.workspace none) ⟨⟨"p.go"⟩, .point ⟨1, 0⟩⟩ =
      addTest (nestedFunction.workspace none) ⟨⟨"p.go"⟩, ⟨⟨2, 6⟩, ⟨2, 15⟩⟩⟩ := by
  have checked : (SourceFile.ofText ⟨"p.go"⟩ nestedText).broken = false ∧
      ((SourceFile.ofText ⟨"p.go"⟩ nestedText).funcDecls.any fun decl =>
        decl.start == 10 && decl.stop == 43) = true ∧
      (LineIndex.ofText nestedText).offsets (.point ⟨1, 0⟩) = .ok (10, 10) ∧
      (LineIndex.ofText nestedText).offsets ⟨⟨2, 6⟩, ⟨2, 15⟩⟩ = .ok (27, 36) ∧
      nestedFunction.read? ⟨"p.go"⟩ = some nestedText := by decide +kernel
  obtain ⟨unbroken, known, keyword, literal, read⟩ := checked
  obtain ⟨decl, declared, place⟩ := List.any_eq_true.mp known
  simp only [Bool.and_eq_true, beq_iff_eq] at place
  obtain ⟨start, stop⟩ := place
  refine ⟨unbroken, (enclosing_covers unbroken).2.2 _ (congrArg Except.ok read) decl declared _ _
    ⟨10, 10, keyword, ?_⟩ ⟨27, 36, literal, ?_⟩⟩
  · unfold FuncDecl.Covers
    omega
  · unfold FuncDecl.Covers
    omega

end Scaffold
