import Scaffold.Proofs.Cli.System

/-! Tests made on a system and in memory: they agree as far as directories of imports are there. -/

namespace Scaffold

open Go

/-- A step whose failures are not those of a system. -/
def IsSystemFree {α : Type} (step : Except Failure α) : Prop :=
  ∀ failure, step = .error failure → failure.kind ≠ .io

namespace IsSystemFree

variable {α β : Type} {step : Except Failure α}

theorem ok (value : α) : IsSystemFree (.ok value) := by
  intro failure same
  cases same

theorem error {failure : Failure} (other : failure.kind ≠ .io) :
    IsSystemFree (.error failure : Except Failure α) :=
  fun _ same => Except.error.inj same ▸ other

theorem bind {next : α → Except Failure β} (first : IsSystemFree step)
    (second : ∀ value, IsSystemFree (next value)) : IsSystemFree (step >>= next) := by
  cases step with
  | error failure => exact .error (first failure rfl)
  | ok value => exact second value

/-- What always has a result never fails. -/
theorem of_exists (made : ∃ value, step = .ok value) : IsSystemFree step := by
  obtain ⟨value, rfl⟩ := made
  exact .ok value

end IsSystemFree

section Free

variable (tree : FileTree) (setting : Option String)

theorem isSystemFree_moduleIn (directories : List FilePath) :
    IsSystemFree (moduleIn (tree.workspace setting) directories) := by
  induction directories with
  | nil => exact .ok none
  | cons directory above ih =>
    rw [moduleIn]
    refine IsSystemFree.bind (.ok _) fun text => ?_
    cases text with
    | none => exact ih
    | some text =>
      dsimp only
      split
      · exact .error (by rintro ⟨⟩)
      · exact .ok _

theorem isSystemFree_loadPackage (path : FilePath) :
    IsSystemFree (loadPackage (tree.workspace setting) path) := by
  rw [loadPackage]
  refine IsSystemFree.bind (.ok _) fun text => ?_
  cases text with
  | none => exact .error (by rintro ⟨⟩)
  | some text =>
    dsimp only
    split
    · exact .error (by rintro ⟨⟩)
    · refine IsSystemFree.bind (.ok _) fun listed => ?_
      refine (IsSystemFree.of_exists (tree.exists_readSources setting _)).bind fun siblings => ?_
      refine IsSystemFree.bind ?_ fun metadata => .ok _
      rw [findMetadata]
      refine (isSystemFree_moduleIn tree setting _).bind fun module => ?_
      cases module with
      | none => exact .ok _
      | some module =>
        exact (IsSystemFree.of_exists (tree.exists_findDeps setting module _ _)).bind fun _ => .ok _

theorem isSystemFree_fileImports (known : List (String × String)) (file : SourceFile) :
    IsSystemFree (fileImports known file) := by
  rw [fileImports]
  generalize ([] : ImportSet) = names
  induction file.imports generalizing names with
  | nil => exact .ok names
  | cons spec rest ih =>
    rw [collectNames]
    split
    · exact .error (by rintro ⟨⟩)
    · split
      · exact ih _
      · exact ih _

theorem isSystemFree_openSubject (package : Package) (path : FilePath) :
    IsSystemFree (openSubject package path) := by
  rw [openSubject]
  refine IsSystemFree.bind ?_ fun _ => ?_
  · unfold checkPackage
    split
    · exact .error (by rintro ⟨⟩)
    · split
      · exact .error (by rintro ⟨⟩)
      · split
        · exact .ok ()
        · exact .error (by rintro ⟨⟩)
  · split
    · exact .error (by rintro ⟨⟩)
    · exact (isSystemFree_fileImports _ _).bind fun _ => .ok _

theorem isSystemFree_siteOf (subject : Subject) (path : FilePath) (text : Option String) :
    IsSystemFree (siteOf subject path text) := by
  unfold siteOf
  split
  · exact .ok _
  · refine IsSystemFree.bind ?_ fun _ => (isSystemFree_fileImports _ _).bind fun _ => .ok _
    unfold testPackage
    split
    · exact .error (by rintro ⟨⟩)
    · split
      · exact .ok _
      · split
        · exact .ok _
        · exact .error (by rintro ⟨⟩)

theorem isSystemFree_receiverTypeName (method : Function) :
    IsSystemFree (receiverTypeName method) := by
  unfold receiverTypeName
  split
  · exact .ok _
  · exact .error (by rintro ⟨⟩)

theorem isSystemFree_planTest (subject : Subject) (site : TestSite) (function : Function) :
    IsSystemFree (planTest subject site function) := by
  have visible : IsSystemFree (checkVisibility function subject.package.name) := by
    unfold checkVisibility
    split
    · exact .error (by rintro ⟨⟩)
    · split
      · refine (isSystemFree_receiverTypeName function).bind fun receiver => ?_
        split
        · exact .ok ()
        · exact .error (by rintro ⟨⟩)
      · exact .ok ()
  have named : IsSystemFree (testName function) := by
    unfold testName
    split
    · exact (isSystemFree_receiverTypeName function).bind fun _ => .ok _
    · exact .ok _
  have chosen : IsSystemFree (chooseReceiver subject.package.plainFunctions function
      (viewpointOf subject site).external) := by
    unfold chooseReceiver
    split
    · exact .ok none
    · refine (isSystemFree_receiverTypeName function).bind fun typeName => ?_
      split
      · exact .error (by rintro ⟨⟩)
      · exact .ok _
  rw [planTest]
  -- Whether or not the function has to be visible, the same steps are left.
  split
  · exact visible.bind fun _ => named.bind fun _ => chosen.bind fun _ => .ok _
  · exact named.bind fun _ => chosen.bind fun _ => .ok _

theorem isSystemFree_testChanges (subject : Subject) (site : TestSite) (range : Range) :
    IsSystemFree (testChanges subject site range setting) := by
  rw [testChanges]
  refine IsSystemFree.bind ?_ fun function => ?_
  · unfold targetOf
    split
    · exact .error (by rintro ⟨⟩)
    · split
      · exact .error (by rintro ⟨⟩)
      · split
        · exact .error (by rintro ⟨⟩)
        · exact .ok _
  refine (isSystemFree_planTest subject site function).bind fun planned => ?_
  obtain ⟨plan, imports⟩ := planned
  show IsSystemFree (writeTest site setting plan imports)
  unfold writeTest
  split
  · exact .error (by rintro ⟨⟩)
  · unfold Destination.changes
    split
    · exact .ok _
    · split
      · exact .error (by rintro ⟨⟩)
      · exact .ok _

/-- In memory no test fails for a system. -/
theorem isSystemFree_addTest (location : Location) :
    IsSystemFree (addTest (tree.workspace setting) location) := by
  rw [addTest]
  simp only [ofExcept_self]
  refine (isSystemFree_loadPackage tree setting _).bind fun package => ?_
  refine (isSystemFree_openSubject package _).bind fun subject => ?_
  refine IsSystemFree.bind (.ok _) fun text => ?_
  refine (isSystemFree_siteOf subject _ text).bind fun site => ?_
  exact isSystemFree_testChanges _ subject site _

end Free

/-- The test file beside a file lies in the same directory. -/
theorem testFilePath_plain {path directory : FilePath} (plain : path.IsPlain)
    (there : directory.IsPlain) (inside : path.parent? = some directory) :
    (testFilePath path).IsPlain ∧ (testFilePath path).parent? = some directory := by
  obtain ⟨base, rest, changed, is, -⟩ := exists_testFilePath path
  have named : path.fileName?.isSome = true := by
    rcases plain.cases with rfl | ⟨parent, name, -, last, rfl⟩
    · rw [FilePath.parent?_absolute_nil] at inside
      cases inside
    · rw [fileName?_join last]
      rfl
  obtain ⟨name, named⟩ := Option.isSome_iff_exists.mp named
  rw [changed, FilePath.withFileName, named, inside]
  exact there.join is

/--
A test is the same on a system and in memory if all directories are there that are looked into for
the names of imported packages.

If one of them is missing, the run on the system fails for that, and no run in memory fails so.
-/
theorem addTest_on_system {m : Type → Type} [Monad m] [LawfulMonad m] {system : Cli.System m} {tree : FileTree}
    {isDirectory : FilePath → Prop} (rooted : tree.IsRooted isDirectory)
    (holds : system.Holds tree isDirectory) (setting : Option String) {location : Location}
    {text : String} (member : (location.path, text) ∈ tree.files)
    (free : IsUnblocked isDirectory location.path)
    (tidy : ∀ directory ∈ tree.lookedInto location.path, directory.IsPlain) :
    ((∀ directory ∈ tree.lookedInto location.path, isDirectory directory) →
      (addTest (system.workspace setting) location).run =
        pure (addTest (tree.workspace setting) location)) ∧
    ((∃ directory, directory ∈ tree.lookedInto location.path ∧ ¬isDirectory directory) →
      (∃ reason, (addTest (system.workspace setting) location).run =
        pure (.error (.io reason))) ∧
      ∀ failure, addTest (tree.workspace setting) location = .error failure →
        failure.kind ≠ .io) := by
  obtain ⟨alike, refused⟩ :=
    holds.runs_loadPackage setting rooted member free.modules tidy
  constructor
  · intro there
    refine (alike there).bind fun package _ => ?_
    obtain ⟨directory, inside, held⟩ := rooted.inside _ member
    obtain ⟨plain, beside⟩ := testFilePath_plain (rooted.plain _ member)
      (rooted.directories _ held) inside
    refine (Runs.lifted (openSubject package location.path)).bind fun subject _ => ?_
    refine (holds.runs_read plain beside held free.destination).bind fun text _ => ?_
    exact (Runs.lifted (siteOf subject _ text)).bind fun site _ => .lifted _
  · intro missing
    obtain ⟨reason, failed⟩ := refused missing
    exact ⟨⟨reason, failed.failing _⟩,
      isSystemFree_addTest tree setting location⟩

/-- A system with the files of a tree and some directories, on which nothing can be written. -/
def FileTree.system (tree : FileTree) (directories : List FilePath) : Cli.System Id where
  read path :=
    match tree.read? path with
    | some text => .ok text
    | none => if path ∈ directories then .error .isDirectory else .error .missing
  list directory :=
    if directory ∈ directories then .ok (tree.list directory) else .error .missing
  isPresent path := (tree.read? path).isSome || path ∈ directories
  write _ _ := .error (.other "Read-only file system (os error 30)")
  makeDirectory _ := .error (.other "Read-only file system (os error 30)")
  setting _ := none

/-- Such a system answers as one that holds the files and directories. -/
theorem FileTree.holds_system (tree : FileTree) (directories : List FilePath) :
    (tree.system directories).Holds tree (· ∈ directories) where
  read path text held _ := by
    show (tree.system directories).read path = .ok text
    simp [FileTree.system, held]
  missing path parent _ _ _ free none := by
    show (tree.system directories).read path = .error .missing
    simp [FileTree.system, none, free]
  list directory there := by
    refine ⟨tree.list directory, ?_, .refl _⟩
    show (tree.system directories).list directory = .ok (tree.list directory)
    simp [FileTree.system, there]
  unlisted path _ missing := by
    refine ⟨.missing, ?_⟩
    show (tree.system directories).list path = .error .missing
    simp [FileTree.system, missing]

/-- Whether listed directories are those around the files of a tree can be checked. -/
theorem FileTree.isRooted_of_checks {tree : FileTree} {directories : List FilePath}
    (ordered : tree.IsOrdered) (plain : ∀ file ∈ tree.files, file.1.IsPlain)
    (inside : ∀ file ∈ tree.files, file.1.parent?.any (· ∈ directories) = true ∧
      file.1 ∉ directories)
    (above : ∀ directory ∈ directories, directory.IsPlain ∧
      directory.parent?.all (· ∈ directories) = true) : tree.IsRooted (· ∈ directories) where
  ordered := ordered
  plain := plain
  inside file member := by
    have held := (inside file member).1
    rw [Option.any_eq_true_iff_get] at held
    obtain ⟨some, held⟩ := held
    exact ⟨_, (Option.some_get some).symm, by simpa using held⟩
  directories directory there := (above directory there).1
  above directory parent there up := by
    have held := (above directory there).2
    rw [up] at held
    simpa using held
  apart file member := (inside file member).2

/-- A module with a function whose parameter is of an imported package, and some more files. -/
def importingModule (others : List (FilePath × String)) : FileTree :=
  ⟨[(⟨"/ws/go.mod"⟩, "module m"),
    (⟨"/ws/p.go"⟩, "package p\nimport \"m/q\"\nfunc F(x q.T) \x7b\x7d")] ++ others⟩

/-- The function of that module. -/
def importingFunction : Location :=
  ⟨⟨"/ws/p.go"⟩, .point ⟨2, 6⟩⟩

/-- The function is in a file of the module. -/
theorem exists_mem_importingModule (others : List (FilePath × String)) :
    ∃ text, (importingFunction.path, text) ∈ (importingModule others).files :=
  ⟨_, List.mem_append_left _ (List.mem_cons_of_mem _ (List.mem_singleton_self _))⟩

/-- With the imported package in its directory, the test is the same on a system. -/
theorem addTest_on_system_importing : ∃ changes,
    addTest ((importingModule [(⟨"/ws/q/q.go"⟩, "package q\ntype T int")]).workspace none)
      importingFunction = .ok changes ∧
    (addTest (((importingModule [(⟨"/ws/q/q.go"⟩, "package q\ntype T int")]).system
      [⟨"/"⟩, ⟨"/ws"⟩, ⟨"/ws/q"⟩]).workspace none) importingFunction).run =
        (pure (.ok changes) : Id (Except Failure (List Change))) := by
  let tree := importingModule [(⟨"/ws/q/q.go"⟩, "package q\ntype T int")]
  let directories : List FilePath := [⟨"/"⟩, ⟨"/ws"⟩, ⟨"/ws/q"⟩]
  have rooted : tree.IsRooted (· ∈ directories) :=
    FileTree.isRooted_of_checks (by unfold FileTree.IsOrdered; decide +kernel) (by decide +kernel)
      (by decide +kernel) (by decide +kernel)
  have free : IsUnblocked (· ∈ directories) importingFunction.path :=
    ⟨by decide +kernel, by decide +kernel⟩
  have looked : tree.lookedInto importingFunction.path = [⟨"/ws/q"⟩] := by decide +kernel
  have there : ∀ directory ∈ tree.lookedInto importingFunction.path, directory ∈ directories := by
    rw [looked]
    decide
  obtain ⟨found, located, checked⟩ := exists_plannedAt tree importingFunction
    (fun found => found.subject.package.ref.path != "testing") (by decide +kernel)
  obtain ⟨changes, added⟩ := exists_addTest located (bne_iff_ne.mp checked) none
  obtain ⟨text, member⟩ := exists_mem_importingModule [(⟨"/ws/q/q.go"⟩, "package q\ntype T int")]
  have same := (addTest_on_system rooted (tree.holds_system directories) none member free
    fun directory member => rooted.directories _ (there directory member)).1 there
  exact ⟨changes, added, added ▸ same⟩

/-- Without the directory of the imported package, the run on a system fails, and the one in memory
does not. -/
theorem addTest_on_system_missing : ∃ changes reason,
    addTest ((importingModule []).workspace none) importingFunction = .ok changes ∧
    (addTest (((importingModule []).system [⟨"/"⟩, ⟨"/ws"⟩]).workspace none)
      importingFunction).run = (pure (.error (.io reason)) : Id (Except Failure (List Change))) := by
  let tree := importingModule []
  let directories : List FilePath := [⟨"/"⟩, ⟨"/ws"⟩]
  have rooted : tree.IsRooted (· ∈ directories) :=
    FileTree.isRooted_of_checks (by unfold FileTree.IsOrdered; decide +kernel) (by decide +kernel)
      (by decide +kernel) (by decide +kernel)
  have looked : tree.lookedInto importingFunction.path = [⟨"/ws/q"⟩] := by decide +kernel
  obtain ⟨found, located, checked⟩ := exists_plannedAt tree importingFunction
    (fun found => found.subject.package.ref.path != "testing") (by decide +kernel)
  obtain ⟨changes, added⟩ := exists_addTest located (bne_iff_ne.mp checked) none
  obtain ⟨text, member⟩ := exists_mem_importingModule []
  obtain ⟨reason, refused⟩ := ((tree.holds_system directories).runs_loadPackage none rooted member
    (by decide +kernel) (by rw [looked]; decide +kernel)).2
    ⟨⟨"/ws/q"⟩, by rw [looked]; simp, by decide⟩
  exact ⟨changes, reason, added, refused.failing _⟩

end Scaffold
