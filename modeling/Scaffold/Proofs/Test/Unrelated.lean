import Scaffold.Proofs.FileTree
import Scaffold.Proofs.Test.Addition

/-! Files that have no say in a test: neither what they hold nor whether they are there matters. -/

namespace Scaffold

open Go

variable {m : Type → Type} {related : FilePath → Bool} {first second : Workspace m}

/-- Workspaces that agree on some files: each reads alike, and directories hold the same of them. -/
structure Workspace.AgreesOn [Functor m] (related : FilePath → Bool) (first second : Workspace m) :
    Prop where
  read : ∀ path, related path = true → first.read path = second.read path
  list : ∀ directory, List.filter related <$> first.list directory =
    List.filter related <$> second.list directory

section Readings

variable [Monad m]

/-- A module is found by files that declare modules. -/
theorem moduleIn_congr [MonadExcept Failure m] (agree : first.AgreesOn related second)
    (modules : ∀ directory : FilePath, related (directory.join moduleFileName) = true)
    (directories : List FilePath) : moduleIn first directories = moduleIn second directories := by
  induction directories with
  | nil => rfl
  | cons directory above ih =>
    rw [moduleIn, moduleIn, agree.read _ (modules directory)]
    refine bind_congr fun text => ?_
    cases text with
    | none => exact ih
    | some text => rfl

theorem readSources_congr (agree : first.AgreesOn related second) {paths : List FilePath}
    (all : ∀ path ∈ paths, related path = true) :
    readSources first paths = readSources second paths := by
  induction paths with
  | nil => rfl
  | cons path rest ih =>
    obtain ⟨head, tail⟩ := List.forall_mem_cons.mp all
    rw [readSources, readSources, agree.read path head, ih tail]

theorem declaredPackage_congr (agree : first.AgreesOn related second) {paths : List FilePath}
    (all : ∀ path ∈ paths, related path = true) :
    declaredPackage first paths = declaredPackage second paths := by
  induction paths with
  | nil => rfl
  | cons path rest ih =>
    obtain ⟨head, tail⟩ := List.forall_mem_cons.mp all
    rw [declaredPackage, declaredPackage, agree.read path head, ih tail]

/-- What is done with some of the listed files is the same if those are files agreed on. -/
theorem Workspace.AgreesOn.bind_list [LawfulMonad m] (agree : first.AgreesOn related second)
    {α : Type} {narrow : FilePath → Bool} (among : ∀ path, narrow path = true → related path = true)
    (next other : List FilePath → m α)
    (same : ∀ paths, (∀ path ∈ paths, related path = true) → next paths = other paths)
    (directory : FilePath) :
    (do let listed ← first.list directory; next (listed.filter narrow)) =
      (do let listed ← second.list directory; other (listed.filter narrow)) := by
  -- Narrowing the list loses nothing if only the files agreed on are left first.
  have inner : ∀ listed : List FilePath,
      listed.filter narrow = (listed.filter related).filter narrow := by
    intro listed
    rw [List.filter_filter]
    refine List.filter_congr fun path _ => ?_
    cases kept : narrow path with
    | true => rw [among path kept]; rfl
    | false => rfl
  have equal : ∀ listed : List FilePath,
      next (listed.filter narrow) = other ((listed.filter related).filter narrow) := by
    intro listed
    rw [← inner]
    exact same _ fun path member => among path (List.mem_filter.mp member).2
  calc (do let listed ← first.list directory; next (listed.filter narrow))
      = (do let listed ← List.filter related <$> first.list directory;
            other (listed.filter narrow)) := by
        rw [bind_map_left]
        exact bind_congr equal
    _ = (do let listed ← List.filter related <$> second.list directory;
            other (listed.filter narrow)) := by
        rw [agree.list]
    _ = _ := by
        rw [bind_map_left]
        exact bind_congr fun listed => congrArg other (inner listed).symm

/-- So is what is done with the name that those files declare. -/
theorem Workspace.AgreesOn.bind_declaredPackage [LawfulMonad m]
    (agree : first.AgreesOn related second) {α : Type} {narrow : FilePath → Bool}
    (among : ∀ path, narrow path = true → related path = true) (next other : Option String → m α)
    (same : ∀ found, next found = other found) (directory : FilePath) :
    (do let listed ← first.list directory
        let found ← declaredPackage first (listed.filter narrow)
        next found) =
      (do let listed ← second.list directory
          let found ← declaredPackage second (listed.filter narrow)
          other found) := by
  refine agree.bind_list among (fun files => declaredPackage first files >>= next)
    (fun files => declaredPackage second files >>= other) (fun files all => ?_) directory
  rw [declaredPackage_congr agree all]
  exact bind_congr same

/-- Imported packages are named by Go files that are no tests. -/
theorem findDeps_congr [LawfulMonad m] (agree : first.AgreesOn related second)
    (sources : ∀ file : FilePath, (file.isGoSource && !file.isGoTest) = true → related file = true)
    (module : Module) (known : List (String × String)) (paths : List String) :
    findDeps first module known paths = findDeps second module known paths := by
  induction paths generalizing known with
  | nil => rfl
  | cons path rest ih =>
    rw [findDeps, findDeps]
    split
    · refine agree.bind_declaredPackage sources _ _ (fun found => ?_) _
      cases found with
      | none => exact ih known
      | some name => exact ih _
    · exact ih known

/-- A package is loaded from modules and Go files that are no tests, and from its own files. -/
theorem loadPackage_congr [LawfulMonad m] [MonadExcept Failure m]
    (agree : first.AgreesOn related second)
    (modules : ∀ directory : FilePath, related (directory.join moduleFileName) = true)
    (sources : ∀ file : FilePath, (file.isGoSource && !file.isGoTest) = true → related file = true)
    {path : FilePath} (own : related path = true) (siblings : ∀ file : FilePath,
      (!file.same path && file.isGoSource && (path.isGoTest || !file.isGoTest)) = true →
        related file = true) :
    loadPackage first path = loadPackage second path := by
  have metadata : ∀ directory name files,
      findMetadata first directory name files = findMetadata second directory name files := by
    intro directory name files
    rw [findMetadata, findMetadata, findModule, findModule, moduleIn_congr agree modules]
    simp only [findDeps_congr agree sources]
  rw [loadPackage, loadPackage, agree.read path own]
  simp only [metadata]
  refine bind_congr fun text => ?_
  cases text with
  | none => rfl
  | some text =>
    dsimp only
    split
    · rfl
    · rename_i name _
      let next (workspace : Workspace m) (files : List FilePath) : m Package := do
        let siblings ← readSources workspace files
        let members := siblings.filter fun file => file.packageName? == some name
        let files := sortOrdered (fun first second => first.path.beforeOrSame second.path)
          (members ++ [.ofText path text])
        return .ofFiles (← findMetadata second (path.parent?.getD ⟨""⟩) name files) files
      refine agree.bind_list siblings (next first) (next second) (fun files all => ?_) _
      simp only [next, readSources_congr agree all]

/-- A test is made of no more than its destination, modules and Go files that are no tests. -/
theorem addTest_congr [LawfulMonad m] [MonadExcept Failure m]
    (agree : first.AgreesOn related second) (setting : first.ownPrefix = second.ownPrefix)
    (modules : ∀ directory : FilePath, related (directory.join moduleFileName) = true)
    (sources : ∀ file : FilePath, (file.isGoSource && !file.isGoTest) = true → related file = true)
    {location : Location} (source : location.path.isGoSource = true)
    (plain : location.path.isGoTest = false)
    (destination : related (testFilePath location.path) = true) :
    addTest first location = addTest second location := by
  -- The tested file is no test, so none of its siblings in the package is one.
  have siblings : ∀ file : FilePath, (!file.same location.path && file.isGoSource &&
      (location.path.isGoTest || !file.isGoTest)) = true → related file = true := by
    intro file among
    refine sources file ?_
    simp only [plain, Bool.false_or, Bool.and_eq_true] at among ⊢
    exact ⟨among.1.2, among.2⟩
  have own := sources location.path (by simp [source, plain])
  rw [addTest, addTest, loadPackage_congr agree modules sources own siblings]
  simp only [agree.read _ destination, setting]

end Readings

/-- The setting for own imports has no say in the package that is loaded. -/
theorem loadPackage_workspace (tree : FileTree) (setting other : Option String) (path : FilePath) :
    loadPackage (tree.workspace setting) path = loadPackage (tree.workspace other) path := by
  have agree : (tree.workspace setting).AgreesOn (fun _ => true) (tree.workspace other) :=
    ⟨fun _ _ => rfl, fun _ => rfl⟩
  exact loadPackage_congr agree (fun _ => rfl) (fun _ _ => rfl) rfl fun _ _ => rfl

section Unrelated

/-- Whether a file has no say in a test for the functions of another file: a test file that is not
the destination, or a file that is neither Go source nor declares a module. -/
def isUnrelated (tested file : FilePath) : Bool :=
  file.isGoTest && !file.same (testFilePath tested) ||
    !file.isGoSource && file.fileName? != some moduleFileName

/-- Files that declare modules are called so. -/
theorem fileName?_module (directory : FilePath) :
    (directory.join moduleFileName).fileName? = some moduleFileName :=
  fileName?_join ⟨by decide, by decide, by decide⟩ directory

theorem isUnrelated_module (tested directory : FilePath) :
    isUnrelated tested (directory.join moduleFileName) = false := by
  have plain : (directory.join moduleFileName).isGoTest = false := by
    rw [FilePath.isGoTest, fileName?_module]
    decide
  rw [isUnrelated, plain, fileName?_module]
  simp

theorem isUnrelated_source (tested : FilePath) {file : FilePath}
    (source : (file.isGoSource && !file.isGoTest) = true) : isUnrelated tested file = false := by
  simp only [Bool.and_eq_true, Bool.not_eq_true'] at source
  simp [isUnrelated, source]

/-- The test file beside a file is Go source. -/
theorem isUnrelated_destination (tested : FilePath) :
    isUnrelated tested (testFilePath tested) = false := by
  obtain ⟨base, -, named, -⟩ := exists_fileName?_testFilePath tested
  have source : (testFilePath tested).isGoSource = true := by
    have ends : finishesWith (String.ofList base ++ "_test.go") ".go" = true := by
      rw [finishesWith, List.isSuffixOf_iff_suffix]
      exact ⟨base ++ "_test".toList, by simp⟩
    have longer : String.ofList base ++ "_test.go" ≠ ".go" := by
      intro same
      have lengths := congrArg String.length same
      have ending : "_test.go".length = 8 := rfl
      have whole : ".go".length = 3 := rfl
      rw [String.length_append] at lengths
      omega
    rw [FilePath.isGoSource, named]
    simp [ends, longer]
  simp [isUnrelated, source, same_refl]

/-- Paths with the same components are related alike. -/
theorem isUnrelated_of_same (tested : FilePath) {first second : FilePath}
    (same : first.same second = true) : isUnrelated tested first = isUnrelated tested second := by
  have named := fileName?_of_same same
  have components : first.components = second.components := eq_of_beq same
  simp only [isUnrelated, FilePath.isGoTest, FilePath.isGoSource, FilePath.same, named, components]

/-- Trees that hold the same related files agree on them as workspaces. -/
theorem agreesOn_workspace {tree other : FileTree} (ordered : tree.IsOrdered)
    (ordered' : other.IsOrdered) (setting : Option String)
    (agree : ∀ path, related path = true → tree.fileAt? path = other.fileAt? path) :
    (tree.workspace setting).AgreesOn related (other.workspace setting) where
  read path kept := by
    show Except.ok (tree.read? path) = .ok (other.read? path)
    rw [FileTree.read?_eq, FileTree.read?_eq, agree path kept]
  list directory := by
    -- What is listed of the related files is listed from them alone.
    have listed : ∀ tree : FileTree, (tree.list directory).filter related =
        FileTree.list ⟨tree.files.filter fun file => related file.1⟩ directory := by
      intro tree
      simp only [FileTree.list, List.filter_map, List.filter_filter, Function.comp_def,
        Bool.and_comm]
    show Except.ok ((tree.list directory).filter related) =
      .ok ((other.list directory).filter related)
    rw [listed, listed, FileTree.filter_files_eq ordered ordered' agree]

/-- Unrelated files do not influence the result: trees that hold the same files but for those give
the same changes, or the same error. -/
theorem addTest_unrelated {tree other : FileTree} (ordered : tree.IsOrdered)
    (ordered' : other.IsOrdered) (setting : Option String) {location : Location}
    (source : location.path.isGoSource = true) (plain : location.path.isGoTest = false)
    (agree : ∀ path, isUnrelated location.path path = false →
      tree.fileAt? path = other.fileAt? path) :
    addTest (tree.workspace setting) location = addTest (other.workspace setting) location := by
  have related := agreesOn_workspace ordered ordered' setting
    (fun path kept => agree path (by simpa using kept) :
      ∀ path, (!isUnrelated location.path path) = true → tree.fileAt? path = other.fileAt? path)
  exact addTest_congr related rfl (by simp [isUnrelated_module])
    (fun file kept => by simp [isUnrelated_source location.path kept]) source plain
    (by simp [isUnrelated_destination])

/-- An unrelated file may be added to a tree. -/
theorem fileAt?_insert_unrelated (tree : FileTree) {tested path asked : FilePath} (text : String)
    (unrelated : isUnrelated tested path = true) (kept : isUnrelated tested asked = false) :
    (tree.insert path text).fileAt? asked = tree.fileAt? asked := by
  refine FileTree.fileAt?_insert_of_not_same tree text (eq_false_of_ne_true fun same => ?_)
  rw [isUnrelated_of_same tested same, unrelated] at kept
  cases kept

/-- Another test file and a text are added beside a function, and its test stays the same. -/
theorem addTest_unrelated_oneFunction :
    isUnrelated thatFunction.path ⟨"q_test.go"⟩ = true ∧
      isUnrelated thatFunction.path ⟨"notes.txt"⟩ = true ∧
      addTest (oneFunction.workspace none) thatFunction =
        addTest (((oneFunction.insert ⟨"q_test.go"⟩ "package q\n").insert
          ⟨"notes.txt"⟩ "none").workspace none) thatFunction := by
  have test : isUnrelated thatFunction.path ⟨"q_test.go"⟩ = true := by decide +kernel
  have notes : isUnrelated thatFunction.path ⟨"notes.txt"⟩ = true := by decide +kernel
  have ordered : oneFunction.IsOrdered := by
    unfold FileTree.IsOrdered
    decide +kernel
  refine ⟨test, notes, addTest_unrelated ordered
    (FileTree.isOrdered_insert (FileTree.isOrdered_insert ordered _ _) _ _) none
    (by decide +kernel) (by decide +kernel) fun path kept => ?_⟩
  rw [fileAt?_insert_unrelated _ _ notes kept, fileAt?_insert_unrelated _ _ test kept]

end Unrelated

end Scaffold
