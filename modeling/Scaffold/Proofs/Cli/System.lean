import Scaffold.Cli.System
import Scaffold.Proofs.AbsolutePath
import Scaffold.Proofs.FileTree
import Scaffold.Proofs.Go.FileOrder
import Scaffold.Proofs.Keyed
import Scaffold.Proofs.Order
import Scaffold.Proofs.Test.Prepared

/-! Files on a system and the same files in memory: what is loaded from either. -/

namespace Scaffold

open Go

variable {m : Type → Type} [Monad m]

section Order

/-- Paths come before others or are the same by their keys. -/
theorem FilePath.beforeOrSame_iff (first second : FilePath) :
    first.beforeOrSame second = true ↔ first.key ≤ second.key := by
  rw [FilePath.beforeOrSame, Bool.not_eq_true', Bool.eq_false_iff, ne_eq, FilePath.before_iff,
    not_lt]

theorem FilePath.isOrder_beforeOrSame : IsOrder FilePath.beforeOrSame where
  total first second := by
    rw [FilePath.beforeOrSame_iff, FilePath.beforeOrSame_iff]
    exact le_total _ _
  trans := by
    intro first second third
    rw [FilePath.beforeOrSame_iff, FilePath.beforeOrSame_iff, FilePath.beforeOrSame_iff]
    exact le_trans

end Order

/-- A step on a system gives the same as one in memory. -/
def Runs {α : Type} (step : ExceptT Failure m α) (result : Except Failure α) : Prop :=
  step.run = Pure.pure result

namespace Runs

variable {α β : Type} {step : ExceptT Failure m α} {result : Except Failure α}

theorem pure (value : α) : Runs (m := m) (Pure.pure value) (.ok value) :=
  rfl

theorem throw (failure : Failure) : Runs (m := m) (α := α) (MonadExcept.throw failure)
    (.error failure) :=
  rfl

/-- Steps in turn give the same if each does behind what the one before it gives. -/
theorem bind [LawfulMonad m] {next : α → ExceptT Failure m β} {later : α → Except Failure β}
    (first : Runs step result)
    (second : ∀ value, result = .ok value → Runs (next value) (later value)) :
    Runs (step >>= next) (result >>= later) := by
  rw [Runs, ExceptT.run_bind, first, pure_bind]
  cases result with
  | error failure => rfl
  | ok value => exact second value rfl

/-- A step that goes well is followed by the next one. -/
theorem behind [LawfulMonad m] {next : α → ExceptT Failure m β} {value : α}
    {final : Except Failure β} (first : Runs step (.ok value)) (second : Runs (next value) final) :
    Runs (step >>= next) final := by
  rw [Runs, ExceptT.run_bind, first, pure_bind]
  exact second

/-- A step that fails is the last one. -/
theorem failing [LawfulMonad m] {failure : Failure} (first : Runs step (.error failure))
    (next : α → ExceptT Failure m β) : Runs (step >>= next) (.error failure) := by
  rw [Runs, ExceptT.run_bind, first, pure_bind]

theorem lifted (result : Except Failure α) :
    Runs (m := m) (ofExcept result) (ofExcept result) := by
  cases result <;> rfl

end Runs

/--
A tree of files with the directories that they lie in, and perhaps others.

Files are under absolute paths in their plain spelling, and no file is a directory.
-/
structure FileTree.IsRooted (tree : FileTree) (isDirectory : FilePath → Prop) : Prop where
  ordered : tree.IsOrdered
  plain : ∀ file ∈ tree.files, file.1.IsPlain
  inside : ∀ file ∈ tree.files, ∃ directory, file.1.parent? = some directory ∧ isDirectory directory
  directories : ∀ directory, isDirectory directory → directory.IsPlain
  above : ∀ directory parent, isDirectory directory → directory.parent? = some parent →
    isDirectory parent
  apart : ∀ file ∈ tree.files, ¬isDirectory file.1

/-- How a system answers that holds some files and directories, and nothing else. -/
structure Cli.System.Holds (system : Cli.System m) (tree : FileTree)
    (isDirectory : FilePath → Prop) : Prop where
  read : ∀ path text, tree.read? path = some text → path.IsPlain →
    system.read path = pure (.ok text)
  missing : ∀ path parent, path.IsPlain → path.parent? = some parent → isDirectory parent →
    ¬isDirectory path → tree.read? path = none → system.read path = pure (.error .missing)
  /-- A directory is listed as the files in it, in any order. -/
  list : ∀ directory, isDirectory directory →
    ∃ files, system.list directory = pure (.ok files) ∧ files.Perm (tree.list directory)
  unlisted : ∀ path, path.IsPlain → ¬isDirectory path →
    ∃ error, system.list path = pure (.error error)

section Held

variable [LawfulMonad m] {system : Cli.System m} {tree : FileTree} {isDirectory : FilePath → Prop}
  {setting : Option String} {path : FilePath}

/-- The path of a file in order reads its text. -/
theorem FileTree.read?_of_mem (ordered : tree.IsOrdered) {file : FilePath × String}
    (member : file ∈ tree.files) : tree.read? file.1 = some file.2 := by
  rw [FileTree.read?_eq, FileTree.fileAt?_of_mem ordered member]
  rfl

/-- A file in a directory is read from a system as from the tree, unless it is a directory. -/
theorem Cli.System.Holds.runs_read (holds : system.Holds tree isDirectory) {parent : FilePath}
    (plain : path.IsPlain) (inside : path.parent? = some parent) (there : isDirectory parent)
    (free : ¬isDirectory path) :
    Runs ((system.workspace setting).read path) ((tree.workspace setting).read path) := by
  show ((system.workspace setting).read path).run = pure (.ok (tree.read? path))
  cases held : tree.read? path with
  | none =>
    have missing := holds.missing path parent plain inside there free held
    simp [Cli.System.workspace, missing]
  | some text =>
    have read := holds.read path text held plain
    simp [Cli.System.workspace, read]

/-- The files that a tree lists. -/
theorem FileTree.mem_list {directory : FilePath} : path ∈ tree.list directory ↔
    (∃ text, (path, text) ∈ tree.files) ∧
      (path.parent?.map fun parent => parent.same directory).getD false = true := by
  simp [FileTree.list]

/-- A directory is listed by a system as by the tree. -/
theorem Cli.System.Holds.runs_list (holds : system.Holds tree isDirectory)
    (rooted : tree.IsRooted isDirectory) {directory : FilePath} (there : isDirectory directory) :
    Runs ((system.workspace setting).list directory) ((tree.workspace setting).list directory) := by
  obtain ⟨files, listed, perm⟩ := holds.list directory there
  have plain : ∀ path ∈ tree.list directory, path.IsPlain := by
    intro path member
    obtain ⟨⟨text, held⟩, -⟩ := FileTree.mem_list.mp member
    exact rooted.plain _ held
  have inOrder : (tree.list directory).Pairwise fun first second =>
      first.beforeOrSame second = true := by
    refine List.Pairwise.filter _ (List.pairwise_map.mpr (rooted.ordered.imp ?_))
    intro first second before
    rw [FilePath.before_iff] at before
    exact (FilePath.beforeOrSame_iff _ _).mpr before.le
  -- Files that may stand either way around have the same components, and so are spelled alike.
  have sorted : sortOrdered FilePath.beforeOrSame files = tree.list directory := by
    refine ((sortOrdered_perm _ files).trans perm).eq_of_pairwise ?_
      (sortOrdered_pairwise FilePath.isOrder_beforeOrSame files) inOrder
    intro first second among other before after
    rw [FilePath.beforeOrSame_iff] at before after
    refine (plain first ?_).eq_of_same (plain second other)
      ((FilePath.same_iff _ _).mpr (le_antisymm before after))
    exact perm.mem_iff.mp (mem_sortOrdered.mp among)
  show ((system.workspace setting).list directory).run = pure (.ok (tree.list directory))
  rw [← sorted]
  simp [Cli.System.workspace, Cli.orFail, listed]

variable (setting) in
/-- What is no directory cannot be listed. -/
theorem Cli.System.Holds.runs_unlisted (holds : system.Holds tree isDirectory)
    (plain : path.IsPlain) (missing : ¬isDirectory path) :
    ∃ reason, Runs ((system.workspace setting).list path) (.error (.io reason)) := by
  obtain ⟨error, refused⟩ := holds.unlisted path plain missing
  refine ⟨error.message, ?_⟩
  show ((system.workspace setting).list path).run = pure (.error (.io error.message))
  simp [Cli.System.workspace, Cli.orFail, refused]

end Held

section Loading

variable [LawfulMonad m] {disk : Workspace (ExceptT Failure m)} {memory : Workspace (Except Failure)}

/-- Files that are read alike give the same module. -/
theorem runs_moduleIn {directories : List FilePath}
    (each : ∀ directory ∈ directories, Runs (disk.read (directory.join moduleFileName))
      (memory.read (directory.join moduleFileName))) :
    Runs (moduleIn disk directories) (moduleIn memory directories) := by
  induction directories with
  | nil => exact .pure none
  | cons directory above ih =>
    obtain ⟨first, others⟩ := List.forall_mem_cons.mp each
    refine first.bind fun text _ => ?_
    cases text with
    | none => exact ih others
    | some text =>
      dsimp only
      split
      · exact .throw _
      · exact .pure _

theorem runs_readSources {paths : List FilePath}
    (each : ∀ path ∈ paths, Runs (disk.read path) (memory.read path)) :
    Runs (readSources disk paths) (readSources memory paths) := by
  induction paths with
  | nil => exact .pure []
  | cons path rest ih =>
    obtain ⟨first, others⟩ := List.forall_mem_cons.mp each
    refine first.bind fun text _ => ?_
    cases text with
    | none => exact ih others
    | some text => exact (ih others).bind fun sources _ => .pure _

theorem runs_declaredPackage {paths : List FilePath}
    (each : ∀ path ∈ paths, Runs (disk.read path) (memory.read path)) :
    Runs (declaredPackage disk paths) (declaredPackage memory paths) := by
  induction paths with
  | nil => exact .pure none
  | cons path rest ih =>
    obtain ⟨first, others⟩ := List.forall_mem_cons.mp each
    refine first.bind fun text _ => ?_
    cases text with
    | none => exact ih others
    | some text =>
      dsimp only
      split
      · exact ih others
      · exact .pure _

end Loading

section Memory

variable (tree : FileTree) (setting : Option String)

/-- A step behind one that succeeds goes on from its result. -/
theorem ok_bind {α β : Type} (value : α) (next : α → Except Failure β) :
    ((.ok value : Except Failure α) >>= next) = next value := rfl

/-- In memory the files of a directory are read without fail. -/
theorem FileTree.exists_readSources (paths : List FilePath) :
    ∃ sources, readSources (tree.workspace setting) paths = .ok sources := by
  induction paths with
  | nil => exact ⟨[], rfl⟩
  | cons path rest ih =>
    obtain ⟨sources, read⟩ := ih
    have first : (tree.workspace setting).read path = .ok (tree.read? path) := rfl
    rw [readSources, first]
    cases tree.read? path with
    | none => exact ⟨sources, read⟩
    | some text =>
      refine ⟨SourceFile.ofText path text :: sources, ?_⟩
      show (do return SourceFile.ofText path text :: (← readSources (tree.workspace setting) rest)) = _
      rw [read]
      rfl

/-- In memory a declared package is looked for without fail. -/
theorem FileTree.exists_declaredPackage (paths : List FilePath) :
    ∃ found, declaredPackage (tree.workspace setting) paths = .ok found := by
  induction paths with
  | nil => exact ⟨none, rfl⟩
  | cons path rest ih =>
    have first : (tree.workspace setting).read path = .ok (tree.read? path) := rfl
    rw [declaredPackage, first, ok_bind]
    cases tree.read? path with
    | none => exact ih
    | some text =>
      dsimp only
      split
      · exact ih
      · exact ⟨_, rfl⟩

/-- In memory the names of imported packages are found without fail. -/
theorem FileTree.exists_findDeps (module : Module) (paths : List String)
    (known : List (String × String)) :
    ∃ deps, findDeps (tree.workspace setting) module known paths = .ok deps := by
  induction paths generalizing known with
  | nil => exact ⟨known, rfl⟩
  | cons path rest ih =>
    rw [findDeps]
    split
    · rename_i directory _ _
      obtain ⟨found, declares⟩ := tree.exists_declaredPackage setting
        ((tree.list directory).filter fun file => file.isGoSource && !file.isGoTest)
      have listed : (tree.workspace setting).list directory = .ok (tree.list directory) := rfl
      rw [listed]
      show ∃ deps, (declaredPackage (tree.workspace setting) _ >>= _) = .ok deps
      rw [declares]
      cases found with
      | none => exact ih known
      | some name => exact ih _
    · exact ih known

/-- The setting for own imports has no say in the module that is found. -/
theorem findModule_workspace (other : Option String) (directory : FilePath) :
    findModule (tree.workspace setting) directory = findModule (tree.workspace other) directory :=
  have agree : (tree.workspace setting).AgreesOn (fun _ => true) (tree.workspace other) :=
    ⟨fun _ _ => rfl, fun _ => rfl⟩
  moduleIn_congr agree (fun _ => rfl) _

end Memory

/-- The directories of the module that are looked into for the names of imported packages. -/
def FileTree.lookedInto (tree : FileTree) (path : FilePath) : List FilePath :=
  match loadPackage (tree.workspace none) path,
      findModule (tree.workspace none) (path.parent?.getD ⟨""⟩) with
  | .ok package, .ok (some module) =>
    (package.files.flatMap SourceFile.imports).filterMap fun spec => module.directory? spec.path
  | _, _ => []

/-- What is looked into are the directories that the module names for the imports. -/
theorem FileTree.mem_lookedInto {tree : FileTree} {setting : Option String} {path directory other : FilePath}
    {name : String} {files : List SourceFile} (inside : path.parent? = some directory)
    (loads : loadPackage (tree.workspace setting) path =
      (do return .ofFiles (← findMetadata (tree.workspace setting) directory name files) files)) :
    other ∈ tree.lookedInto path ↔ ∃ module,
      findModule (tree.workspace setting) directory = .ok (some module) ∧
      ∃ spec ∈ files.flatMap SourceFile.imports, module.directory? spec.path = some other := by
  have parent : path.parent?.getD ⟨""⟩ = directory := by rw [inside]; rfl
  rw [FileTree.lookedInto, loadPackage_workspace tree none setting,
    findModule_workspace tree none setting, parent, loads, findMetadata]
  cases findModule (tree.workspace setting) directory with
  | error failure => simp [bind, Except.bind]
  | ok found =>
    cases found with
    | none => simp [bind, Except.bind, pure, Except.pure]
    | some module =>
      obtain ⟨deps, finds⟩ := tree.exists_findDeps setting module
        ((files.flatMap SourceFile.imports).map ImportSpec.path) []
      simp [bind, Except.bind, pure, Except.pure, finds]

/-- Nothing is looked into for a package that is not loaded. -/
theorem FileTree.lookedInto_of_error {tree : FileTree} {setting : Option String} {path : FilePath}
    {failure : Failure} (failed : loadPackage (tree.workspace setting) path = .error failure) :
    tree.lookedInto path = [] := by
  rw [FileTree.lookedInto, loadPackage_workspace tree none setting, failed]

/-- No directory is in the place of a file that is asked for: of a module file, or of the test. -/
structure IsUnblocked (isDirectory : FilePath → Prop) (path : FilePath) : Prop where
  modules : ∀ directory ∈ (path.parent?.getD ⟨""⟩).ancestors,
    ¬isDirectory (directory.join moduleFileName)
  destination : ¬isDirectory (testFilePath path)

section Rooted

variable [LawfulMonad m] {system : Cli.System m} {tree : FileTree} {isDirectory : FilePath → Prop}
  {setting : Option String} {path : FilePath}

/-- The files that are listed in a directory are read alike. -/
theorem Cli.System.Holds.runs_read_of_mem (holds : system.Holds tree isDirectory)
    (rooted : tree.IsRooted isDirectory) {directory : FilePath}
    (member : path ∈ tree.list directory) :
    Runs ((system.workspace setting).read path) ((tree.workspace setting).read path) := by
  obtain ⟨⟨text, held⟩, -⟩ := FileTree.mem_list.mp member
  obtain ⟨parent, inside, there⟩ := rooted.inside _ held
  exact holds.runs_read (rooted.plain _ held) inside there (rooted.apart _ held)

/-- The names of imported packages are the same, if all their directories are there. -/
theorem Cli.System.Holds.runs_findDeps (holds : system.Holds tree isDirectory)
    (rooted : tree.IsRooted isDirectory) {module : Module} {paths : List String}
    (there : ∀ path ∈ paths, ∀ directory, module.directory? path = some directory →
      isDirectory directory) (known : List (String × String)) :
    Runs (findDeps (system.workspace setting) module known paths)
      (findDeps (tree.workspace setting) module known paths) := by
  induction paths generalizing known with
  | nil => exact .pure known
  | cons path rest ih =>
    obtain ⟨first, others⟩ := List.forall_mem_cons.mp there
    rw [findDeps, findDeps]
    split
    · rename_i directory _ named
      refine (holds.runs_list rooted (first directory named)).bind fun listed same => ?_
      cases same
      refine (runs_declaredPackage fun path member => ?_).bind fun found _ => ?_
      · exact holds.runs_read_of_mem rooted (List.mem_filter.mp member).1
      · cases found with
        | none => exact ih others known
        | some name => exact ih others _
    · exact ih others known

variable (setting) in
/-- A missing directory of an imported package ends the run on a system. -/
theorem Cli.System.Holds.runs_findDeps_missing (holds : system.Holds tree isDirectory)
    (rooted : tree.IsRooted isDirectory) {module : Module} {paths : List String}
    (tidy : ∀ path ∈ paths, ∀ directory, module.directory? path = some directory →
      directory.IsPlain) {missing : String} {gone : FilePath}
    (member : missing ∈ paths) (named : module.directory? missing = some gone)
    (absent : ¬isDirectory gone) {known : List (String × String)}
    (unknown : known.lookup missing = none) :
    ∃ reason, Runs (findDeps (system.workspace setting) module known paths)
      (.error (.io reason)) := by
  induction paths generalizing known with
  | nil => cases member
  | cons path rest ih =>
    obtain ⟨first, others⟩ := List.forall_mem_cons.mp tidy
    rw [findDeps]
    split
    · rename_i directory _ here
      by_cases there : isDirectory directory
      · -- This directory is there, so the missing one is that of a later import.
        have later : missing ∈ rest := by
          rcases List.mem_cons.mp member with rfl | later
          · cases here.symm.trans named
            exact absurd there absent
          · exact later
        have apart : path ≠ missing := by
          rintro rfl
          cases here.symm.trans named
          exact absent there
        let sources := (tree.list directory).filter fun file => file.isGoSource && !file.isGoTest
        obtain ⟨found, declares⟩ := tree.exists_declaredPackage setting sources
        have declared : Runs (declaredPackage (system.workspace setting) sources) (.ok found) :=
          declares ▸ runs_declaredPackage fun path member =>
            holds.runs_read_of_mem rooted (List.mem_filter.mp member).1
        -- Whatever name is found here, the missing directory is still looked into.
        cases found with
        | none =>
          obtain ⟨reason, refused⟩ := ih others later unknown
          exact ⟨reason, (holds.runs_list rooted there).behind (declared.behind refused)⟩
        | some name =>
          have still : (insertKeyed path name known).lookup missing = none := by
            rw [lookup_insertKeyed_of_ne _ _ (Ne.symm apart)]
            exact unknown
          obtain ⟨reason, refused⟩ := ih others later still
          exact ⟨reason, (holds.runs_list rooted there).behind (declared.behind refused)⟩
      · obtain ⟨reason, refused⟩ := holds.runs_unlisted setting
          (first directory here) there
        exact ⟨reason, refused.failing _⟩
    · rename_i other
      have later : missing ∈ rest := by
        rcases List.mem_cons.mp member with rfl | later
        · exact absurd unknown (fun none => other _ none named)
        · exact later
      exact ih others later unknown

variable (setting) in
/-- What is loaded of a package before its name is looked up is the same. -/
theorem Cli.System.Holds.exists_files (holds : system.Holds tree isDirectory)
    (rooted : tree.IsRooted isDirectory) {text name : String} {directory : FilePath}
    (member : (path, text) ∈ tree.files)
    (named : (SourceFile.ofText path text).packageName? = some name)
    (inside : path.parent? = some directory) (there : isDirectory directory) : ∃ files,
    loadPackage (tree.workspace setting) path =
      (do return .ofFiles (← findMetadata (tree.workspace setting) directory name files) files) ∧
    ∀ result, Runs (findMetadata (system.workspace setting) directory name files) result →
      Runs (loadPackage (system.workspace setting) path)
        (do return .ofFiles (← result) files) := by
  have plain := rooted.plain _ member
  have held := FileTree.read?_of_mem rooted.ordered member
  have read : Runs ((system.workspace setting).read path) (.ok (some text)) := by
    rw [← held]
    exact holds.runs_read plain inside there (rooted.apart _ member)
  let among := (tree.list directory).filter fun file =>
    !file.same path && file.isGoSource && (path.isGoTest || !file.isGoTest)
  obtain ⟨sources, gathered⟩ := tree.exists_readSources setting among
  have gathers : Runs (readSources (system.workspace setting) among) (.ok sources) :=
    gathered ▸ runs_readSources fun file listed =>
      holds.runs_read_of_mem rooted (List.mem_filter.mp listed).1
  refine ⟨sortOrdered (fun first second => first.path.beforeOrSame second.path)
    ((sources.filter fun file => file.packageName? == some name) ++ [.ofText path text]), ?_, ?_⟩
  · have first : (tree.workspace setting).read path = .ok (some text) := congrArg Except.ok held
    have listed : (tree.workspace setting).list directory = .ok (tree.list directory) := rfl
    rw [loadPackage, inside, Option.getD_some, first, ok_bind]
    dsimp only
    rw [named, listed]
    show (readSources (tree.workspace setting) among >>= _) = _
    rw [gathered]
    rfl
  · intro result runs
    rw [loadPackage, inside, Option.getD_some]
    refine read.behind ?_
    dsimp only
    rw [named]
    refine (holds.runs_list rooted there).behind (gathers.behind ?_)
    exact runs.bind fun metadata _ => .pure _

variable (setting) in
/-- The module around a directory is the same. -/
theorem Cli.System.Holds.runs_findModule (holds : system.Holds tree isDirectory)
    (rooted : tree.IsRooted isDirectory) {directory : FilePath} (there : isDirectory directory)
    (free : ∀ above ∈ directory.ancestors, ¬isDirectory (above.join moduleFileName)) :
    Runs (findModule (system.workspace setting) directory)
      (findModule (tree.workspace setting) directory) := by
  have named : IsFileName moduleFileName.toList := ⟨by decide, by decide, by decide⟩
  refine runs_moduleIn fun above member => ?_
  have held := FilePath.forall_mem_ancestors there rooted.above above member
  obtain ⟨plain, inside⟩ := (rooted.directories above held).join named
  exact holds.runs_read plain inside held (free above member)

variable (setting) in
/-- A package is loaded alike if all directories that are looked into are there. If one of them is
missing, the run on the system fails. -/
theorem Cli.System.Holds.runs_loadPackage (holds : system.Holds tree isDirectory)
    (rooted : tree.IsRooted isDirectory) {text : String} (member : (path, text) ∈ tree.files)
    (free : ∀ directory ∈ (path.parent?.getD ⟨""⟩).ancestors,
      ¬isDirectory (directory.join moduleFileName))
    (tidy : ∀ directory ∈ tree.lookedInto path, directory.IsPlain) :
    ((∀ directory ∈ tree.lookedInto path, isDirectory directory) →
      Runs (loadPackage (system.workspace setting) path)
        (loadPackage (tree.workspace setting) path)) ∧
    ((∃ directory, directory ∈ tree.lookedInto path ∧ ¬isDirectory directory) →
      ∃ reason, Runs (loadPackage (system.workspace setting) path) (.error (.io reason))) := by
  obtain ⟨directory, inside, there⟩ := rooted.inside _ member
  have parent : path.parent?.getD ⟨""⟩ = directory := by rw [inside]; rfl
  have held := FileTree.read?_of_mem rooted.ordered member
  have first : (tree.workspace setting).read path = .ok (some text) := congrArg Except.ok held
  cases named : (SourceFile.ofText path text).packageName? with
  | none =>
    -- Without a package clause both fail before any import is looked at.
    have refused : loadPackage (tree.workspace setting) path =
        .error (.missingPackageClause path) := by
      rw [loadPackage, first, ok_bind]
      dsimp only
      rw [named]
      rfl
    constructor
    · intro _
      rw [refused, loadPackage]
      have read : Runs ((system.workspace setting).read path) (.ok (some text)) := by
        rw [← held]
        exact holds.runs_read (rooted.plain _ member) inside there (rooted.apart _ member)
      refine read.behind ?_
      dsimp only
      rw [named]
      exact .throw _
    · rintro ⟨other, looked, -⟩
      rw [FileTree.lookedInto_of_error refused] at looked
      cases looked
  | some name =>
    obtain ⟨files, memory, disk⟩ := holds.exists_files setting rooted member named inside there
    rw [parent] at free
    have found := holds.runs_findModule setting rooted there free
    have looks : ∀ other, other ∈ tree.lookedInto path ↔ _ :=
      fun other => FileTree.mem_lookedInto inside memory
    constructor
    · intro there
      rw [memory]
      refine disk _ ?_
      rw [findMetadata, findMetadata]
      refine found.bind fun module searched => ?_
      cases module with
      | none => exact .pure _
      | some module =>
        refine (holds.runs_findDeps rooted ?_ []).bind fun deps _ => .pure _
        intro path listed other names
        obtain ⟨spec, among, rfl⟩ := List.mem_map.mp listed
        exact there other ((looks other).mpr ⟨module, searched, spec, among, names⟩)
    · rintro ⟨other, looked, missing⟩
      obtain ⟨module, searched, spec, among, names⟩ := (looks other).mp looked
      have known : ([] : List (String × String)).lookup spec.path = none := rfl
      have plain : ∀ path ∈ (files.flatMap SourceFile.imports).map ImportSpec.path,
          ∀ named, module.directory? path = some named → named.IsPlain := by
        intro path listed named names
        obtain ⟨spec, among, rfl⟩ := List.mem_map.mp listed
        exact tidy _ ((looks _).mpr ⟨module, searched, spec, among, names⟩)
      obtain ⟨reason, refused⟩ := holds.runs_findDeps_missing setting rooted plain
        (List.mem_map_of_mem among) names missing known
      rw [searched] at found
      refine ⟨reason, disk (.error (.io reason)) ?_⟩
      rw [findMetadata]
      refine found.behind ?_
      exact refused.failing _

end Rooted

end Scaffold
