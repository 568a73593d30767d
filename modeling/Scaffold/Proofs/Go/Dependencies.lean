import Scaffold.Proofs.Cli.System
import Scaffold.Proofs.Go.ImportPath

/-! The packages of a module: what one is called where it is loaded and where it is imported. -/

namespace Scaffold

open Go

/-- A tree in which one file declares a module, under the directory and with the path given. -/
structure FileTree.HasModule (tree : FileTree) (module : Go.Module) : Prop where
  declared : ∃ text, tree.read? (module.root.join moduleFileName) = some text ∧
    modulePath? text = some module.path
  only : ∀ file ∈ tree.files, file.1.fileName? = some moduleFileName →
    file.1.same (module.root.join moduleFileName) = true

/-- A Go file in a directory, none of its tests, that declares a package of some name. -/
structure FileTree.IsSource (tree : FileTree) (directory path : FilePath) (name : String) :
    Prop where
  held : ∃ text, tree.read? path = some text ∧
    (SourceFile.ofText path text).packageName? = some name
  inside : ∃ parent, path.parent? = some parent ∧ parent.same directory = true
  source : path.isGoSource = true
  plain : path.isGoTest = false

section Reading

variable {tree : FileTree} {setting : Option String}

/-- A path that is read has the components of a file of the tree. -/
theorem FileTree.exists_mem_of_read? {path : FilePath} {text : String}
    (held : tree.read? path = some text) : ∃ file ∈ tree.files, path.same file.1 = true := by
  obtain ⟨file, found, -⟩ := Option.map_eq_some_iff.mp held
  have same := List.find?_some found
  exact ⟨file, List.mem_of_find?_eq_some found, same⟩

/-- What is read under a path does not depend on its spelling. -/
theorem FileTree.read?_of_same {first second : FilePath} (same : first.same second = true) :
    tree.read? first = tree.read? second := by
  have components : first.components = second.components := eq_of_beq same
  simp only [FileTree.read?, FilePath.same, components]

/-- The name of the package does not depend on where the text is. -/
theorem packageName?_ofText (first second : FilePath) (text : String) :
    (SourceFile.ofText first text).packageName? = (SourceFile.ofText second text).packageName? := by
  rw [SourceFile.packageName?, SourceFile.package?, SourceFile.packageName?, SourceFile.package?,
    ofText_items, ofText_items]

end Reading

section Modules

variable {tree : FileTree} {module : Go.Module} (setting : Option String)

/-- The file that declares a module stands one step down from its directory. -/
theorem components_moduleFile (directory : FilePath) :
    (directory.join moduleFileName).components =
      directory.components ++ [.named moduleFileName] := by
  have solid : IsFileName moduleFileName.toList := by decide
  have follows : (Component.named moduleFileName).Follows directory.components := solid
  have step := FilePath.components_join follows
  exact step

theorem same_moduleFile_iff (first second : FilePath) :
    (first.join moduleFileName).same (second.join moduleFileName) = true ↔
      first.same second = true := by
  rw [FilePath.same, FilePath.same, components_moduleFile, components_moduleFile, beq_iff_eq,
    beq_iff_eq]
  exact ⟨fun same => List.append_inj_left' same rfl, fun same => by rw [same]⟩

/-- On the way up a module is found where its directory is met, and nowhere else. -/
theorem FileTree.HasModule.moduleIn (has : tree.HasModule module) (directories : List FilePath) :
    moduleIn (tree.workspace setting) directories =
      .ok ((directories.find? fun directory => directory.same module.root).map
        fun root => ⟨root, module.path⟩) := by
  induction directories with
  | nil => rfl
  | cons directory above ih =>
    have first : (tree.workspace setting).read (directory.join moduleFileName) =
        .ok (tree.read? (directory.join moduleFileName)) := rfl
    rw [Go.moduleIn, first, ok_bind]
    obtain ⟨text, held, path⟩ := has.declared
    cases here : directory.same module.root with
    | true =>
      rw [FileTree.read?_of_same ((same_moduleFile_iff _ _).mpr here), held]
      dsimp only
      rw [path, List.find?_cons, here]
      rfl
    | false =>
      -- A file found here would be a second one.
      have missing : tree.read? (directory.join moduleFileName) = none := by
        cases read : tree.read? (directory.join moduleFileName) with
        | none => rfl
        | some other =>
          obtain ⟨file, member, same⟩ := FileTree.exists_mem_of_read? read
          have named := (fileName?_of_same same).symm.trans (fileName?_module directory)
          have again := (same_moduleFile_iff _ _).mp
            (FilePath.same_trans same (has.only file member named))
          rw [here] at again
          cases again
      rw [missing, List.find?_cons, here]
      exact ih

end Modules

section Deps

variable {tree : FileTree} {setting : Option String} {directory : FilePath} {name : String}

/-- The name that the Go files of a directory declare, tests left out: that of the first to declare
one. -/
def FileTree.declaredIn (tree : FileTree) (directory : FilePath) : Option String :=
  ((tree.list directory).filter fun file => file.isGoSource && !file.isGoTest).findSome?
    fun path => (tree.read? path).bind fun text => (SourceFile.ofText path text).packageName?

theorem declaredPackage_workspace (paths : List FilePath) :
    declaredPackage (tree.workspace setting) paths = .ok (paths.findSome? fun path =>
      (tree.read? path).bind fun text => (SourceFile.ofText path text).packageName?) := by
  induction paths with
  | nil => rfl
  | cons path rest ih =>
    have first : (tree.workspace setting).read path = .ok (tree.read? path) := rfl
    rw [declaredPackage, first, ok_bind, List.findSome?_cons]
    cases tree.read? path with
    | none => exact ih
    | some text =>
      rw [Option.bind_some]
      dsimp only
      cases (SourceFile.ofText path text).packageName? with
      | none => exact ih
      | some found => rfl

/-- What is known of imported packages after one more import: it is looked up unless it is known. -/
def FileTree.learn (tree : FileTree) (module : Go.Module) (known : List (String × String))
    (path : String) : List (String × String) :=
  match known.lookup path, (module.directory? path).bind tree.declaredIn with
  | none, some name => insertKeyed path name known
  | _, _ => known

/-- The imports are looked up one after the other. -/
theorem findDeps_workspace (module : Go.Module) (known : List (String × String))
    (paths : List String) : findDeps (tree.workspace setting) module known paths =
      .ok (paths.foldl (tree.learn module) known) := by
  induction paths generalizing known with
  | nil => rfl
  | cons path rest ih =>
    rw [findDeps, List.foldl_cons, FileTree.learn]
    cases unknown : known.lookup path with
    | some name => exact ih known
    | none =>
      cases named : module.directory? path with
      | none => exact ih known
      | some directory =>
        have listed : (tree.workspace setting).list directory = .ok (tree.list directory) := rfl
        dsimp only
        rw [listed, ok_bind, declaredPackage_workspace, ok_bind, Option.bind_some,
          FileTree.declaredIn]
        split
        · rename_i none
          rw [none]
          exact ih known
        · rename_i name declared
          rw [declared]
          exact ih _

theorem lookup_learn (module : Go.Module) (known : List (String × String)) (path asked : String) :
    (tree.learn module known path).lookup asked = (known.lookup asked).or
      (if asked = path then (module.directory? asked).bind tree.declaredIn else none) := by
  rw [FileTree.learn]
  split
  · rename_i name unknown declared
    by_cases here : asked = path
    · subst here
      rw [lookup_insertKeyed, unknown, if_pos rfl, declared, Option.none_or]
    · rw [lookup_insertKeyed_of_ne name known here, if_neg here, Option.or_none]
  · rename_i other
    by_cases here : asked = path
    · subst here
      rw [if_pos rfl]
      -- Nothing is learned: either the name is known, or there is none to find.
      cases held : known.lookup asked with
      | some name => rw [Option.some_or]
      | none =>
        cases declared : (module.directory? asked).bind tree.declaredIn with
        | none => rfl
        | some name => exact absurd declared (other name held)
    · rw [if_neg here, Option.or_none]

/-- The name under an import path in the end: what was known before, or what is declared in the
directory that an imported path names. -/
theorem lookup_foldl_learn (module : Go.Module) (known : List (String × String))
    (paths : List String) (asked : String) :
    (paths.foldl (tree.learn module) known).lookup asked = (known.lookup asked).or
      (if asked ∈ paths then (module.directory? asked).bind tree.declaredIn else none) := by
  induction paths generalizing known with
  | nil => simp
  | cons path rest ih =>
    rw [List.foldl_cons, ih, lookup_learn, Option.or_assoc]
    by_cases here : asked = path
    · subst here
      rw [if_pos rfl, if_pos List.mem_cons_self]
      split <;> simp
    · simp [here]

/-- A source is one under any spelling of its path. -/
theorem FileTree.IsSource.of_same {path other : FilePath}
    (source : tree.IsSource directory path name) (same : path.same other = true) :
    tree.IsSource directory other name := by
  obtain ⟨⟨text, held, named⟩, ⟨parent, up, inside⟩, source, plain⟩ := source
  obtain ⟨above, up', equal⟩ := FilePath.parent?_of_same same up
  have fileName := fileName?_of_same same
  refine ⟨⟨text, ?_, ?_⟩, ⟨above, up', FilePath.same_trans equal inside⟩, ?_, ?_⟩
  · rw [← FileTree.read?_of_same same, held]
  · rw [packageName?_ofText other path, named]
  · rwa [FilePath.isGoSource, ← fileName]
  · rwa [FilePath.isGoTest, ← fileName]

/-- Sources that all declare one name declare it, however their directory is spelled. -/
theorem declaredIn_eq (some : ∃ path, tree.IsSource directory path name)
    (alike : ∀ path other, tree.IsSource directory path other → other = name)
    {spelled : FilePath} (same : spelled.same directory = true) :
    tree.declaredIn spelled = .some name := by
  -- Every name that is found is that of a source.
  have sound : ∀ path ∈ (tree.list spelled).filter fun file => file.isGoSource && !file.isGoTest,
      ∀ other, ((tree.read? path).bind fun text => (SourceFile.ofText path text).packageName?) =
        .some other → tree.IsSource directory path other := by
    intro path member other found
    obtain ⟨listed, kind⟩ := List.mem_filter.mp member
    obtain ⟨source, plain⟩ := (Bool.and_eq_true _ _).mp kind
    obtain ⟨text, held, named⟩ := Option.bind_eq_some_iff.mp found
    obtain ⟨-, inside⟩ := FileTree.mem_list.mp listed
    cases up : path.parent? with
    | none =>
      rw [up] at inside
      cases inside
    | some parent =>
      rw [up] at inside
      exact ⟨⟨text, held, named⟩, ⟨parent, up, FilePath.same_trans inside same⟩, source,
        by simpa using plain⟩
  rw [FileTree.declaredIn]
  cases found : List.findSome? _ _ with
  | some other =>
    obtain ⟨path, member, declares⟩ := List.exists_of_findSome?_eq_some found
    rw [alike path other (sound path member other declares)]
  | none =>
    -- The source there is would have been found under the path the tree has for it.
    obtain ⟨path, source⟩ := some
    obtain ⟨text, held, -⟩ := source.held
    obtain ⟨file, member, spelling⟩ := FileTree.exists_mem_of_read? held
    obtain ⟨⟨text, held, named⟩, ⟨parent, up, inside⟩, kind, plain⟩ := source.of_same spelling
    have listed : file.1 ∈ tree.list spelled := by
      refine FileTree.mem_list.mpr ⟨⟨file.2, member⟩, ?_⟩
      rw [up]
      exact FilePath.same_trans inside (FilePath.same_symm same)
    have sort : (file.1.isGoSource && !file.1.isGoTest) = true := by
      rw [kind, plain]
      rfl
    have missed := List.findSome?_eq_none_iff.mp found file.1 (List.mem_filter.mpr ⟨listed, sort⟩)
    rw [held, Option.bind_some, named] at missed
    cases missed

end Deps

section Loading

variable {tree : FileTree} (setting : Option String) {path : FilePath}

/-- Metadata is found in memory without fail: the module around a directory names it, and its
imports are looked up. -/
theorem FileTree.HasModule.findMetadata {module : Go.Module} (has : tree.HasModule module)
    (directory : FilePath) (name : String) (files : List SourceFile) :
    findMetadata (tree.workspace setting) directory name files = .ok
      (match directory.ancestors.find? fun above => above.same module.root with
      | none => ⟨looseId, looseId, name, []⟩
      | some root =>
        ⟨Go.Module.importPath ⟨root, module.path⟩ directory,
          Go.Module.importPath ⟨root, module.path⟩ directory, name,
          ((files.flatMap SourceFile.imports).map ImportSpec.path).foldl
            (tree.learn ⟨root, module.path⟩) []⟩) := by
  rw [Go.findMetadata, findModule, has.moduleIn setting, ok_bind]
  cases directory.ancestors.find? fun above => above.same module.root with
  | none => rfl
  | some root =>
    rw [Option.map_some]
    dsimp only
    rw [findDeps_workspace]
    rfl

/-- In a directory of the module, a package goes by the import path that leads there. -/
theorem FileTree.HasModule.exists_findMetadata {module : Go.Module} (has : tree.HasModule module)
    {directory : FilePath} {below : List Component}
    (descends : directory.Descends module.root below) (name : String) (files : List SourceFile) :
    ∃ root, root.same module.root = true ∧
      Go.findMetadata (tree.workspace setting) directory name files = .ok
        ⟨importPathBelow module.path below, importPathBelow module.path below, name,
          ((files.flatMap SourceFile.imports).map ImportSpec.path).foldl
            (tree.learn ⟨root, module.path⟩) []⟩ := by
  obtain ⟨ancestor, member, same⟩ := descends.exists_mem_ancestors
  cases found : directory.ancestors.find? fun above => above.same module.root with
  | none => exact absurd same (List.find?_eq_none.mp found ancestor member)
  | some root =>
    have here := List.find?_some found
    refine ⟨root, here, ?_⟩
    rw [has.findMetadata setting, found]
    dsimp only
    have below' : directory.Descends (Go.Module.mk root module.path).root below :=
      descends.of_same here
    rw [importPath_eq below']

/-- A file with a package clause is loaded with some files of its directory. -/
theorem exists_loadPackage {text name : String} (held : tree.read? path = some text)
    (named : (SourceFile.ofText path text).packageName? = some name) : ∃ files,
    loadPackage (tree.workspace setting) path = (do
      return .ofFiles (← findMetadata (tree.workspace setting) (path.parent?.getD ⟨""⟩) name files)
        files) := by
  have first : (tree.workspace setting).read path = .ok (some text) := congrArg Except.ok held
  rw [loadPackage, first, ok_bind]
  generalize path.parent?.getD ⟨""⟩ = directory
  have listed : (tree.workspace setting).list directory = .ok (tree.list directory) := rfl
  obtain ⟨sources, gathered⟩ := tree.exists_readSources setting ((tree.list directory).filter
    fun file => !file.same path && file.isGoSource && (path.isGoTest || !file.isGoTest))
  dsimp only
  rw [named, listed]
  refine ⟨sortOrdered (fun first second => first.path.beforeOrSame second.path)
    ((sources.filter fun file => file.packageName? == some name) ++ [.ofText path text]), ?_⟩
  show (readSources (tree.workspace setting) _ >>= _) = _
  rw [gathered, ok_bind]

/-- What is loaded is the package of a file with a package clause, made up of some files. -/
theorem exists_of_loadPackage {package : Package}
    (loaded : loadPackage (tree.workspace setting) path = .ok package) : ∃ text name files metadata,
    tree.read? path = some text ∧ (SourceFile.ofText path text).packageName? = some name ∧
    findMetadata (tree.workspace setting) (path.parent?.getD ⟨""⟩) name files = .ok metadata ∧
    package = .ofFiles metadata files := by
  have first : (tree.workspace setting).read path = .ok (tree.read? path) := rfl
  cases held : tree.read? path with
  | none =>
    rw [loadPackage, first, ok_bind, held] at loaded
    cases loaded
  | some text =>
    cases named : (SourceFile.ofText path text).packageName? with
    | none =>
      rw [loadPackage, first, ok_bind, held] at loaded
      dsimp only at loaded
      rw [named] at loaded
      cases loaded
    | some name =>
      obtain ⟨files, loads⟩ := exists_loadPackage setting held named
      rw [loads] at loaded
      obtain ⟨metadata, found, made⟩ := Except.of_bind_eq_ok loaded
      exact ⟨text, name, files, metadata, rfl, named, found, (Except.ok.inj made).symm⟩

/-- What a package that was loaded is called is found in its directory. -/
theorem metadata_of_loadPackage {package : Package}
    (loaded : loadPackage (tree.workspace setting) path = .ok package) : ∃ name,
    findMetadata (tree.workspace setting) (path.parent?.getD ⟨""⟩) name package.files =
      .ok package.metadata := by
  obtain ⟨text, name, files, metadata, -, -, found, rfl⟩ := exists_of_loadPackage setting loaded
  rw [ofFiles_files, ofFiles_metadata]
  exact ⟨name, found⟩

end Loading

section Agreement

variable {tree : FileTree} {module : Go.Module} {setting : Option String} {path : FilePath}
  {package : Package}

/-- No import path outside the module is known to any package. -/
theorem FileTree.HasModule.lookup_deps_outside (has : tree.HasModule module)
    (loaded : loadPackage (tree.workspace setting) path = .ok package) {imported : String}
    (outside : ¬IsWithin module.path imported) : package.metadata.deps.lookup imported = none := by
  obtain ⟨name, found⟩ := metadata_of_loadPackage setting loaded
  rw [has.findMetadata setting] at found
  rw [← Except.ok.inj found]
  split
  · rfl
  · rename_i root _
    rw [lookup_foldl_learn]
    -- Nothing is looked up where the path names no directory.
    have unnamed : Go.Module.directory? ⟨root, module.path⟩ imported = none := by
      cases named : Go.Module.directory? ⟨root, module.path⟩ imported with
      | none => rfl
      | some directory => exact absurd (isWithin_of_directory? named) outside
    rw [unnamed]
    simp

/-- A package inside the module knows what it imports from a directory of the module by the name
that is declared there. -/
theorem FileTree.HasModule.lookup_deps_inside (has : tree.HasModule module)
    (loaded : loadPackage (tree.workspace setting) path = .ok package) {parent directory : FilePath}
    {inner below : List Component} (up : path.parent? = some parent)
    (inside : parent.Descends module.root inner) (descends : directory.Descends module.root below)
    (imported : ∃ file ∈ package.files, ∃ spec ∈ file.imports,
      spec.path = importPathBelow module.path below) :
    ∃ spelled, spelled.same directory = true ∧
      package.metadata.deps.lookup (importPathBelow module.path below) =
        tree.declaredIn spelled := by
  obtain ⟨file, member, spec, imports, path⟩ := imported
  obtain ⟨name, found⟩ := metadata_of_loadPackage setting loaded
  obtain ⟨root, here, metadata⟩ := has.exists_findMetadata setting inside name package.files
  rw [up, Option.getD_some, metadata] at found
  -- The module that is found may be spelled in another way than the one asked about.
  have below' : directory.Descends (Go.Module.mk root module.path).root below :=
    descends.of_same here
  obtain ⟨spelled, named, same⟩ := exists_directory? below'
  refine ⟨spelled, same, ?_⟩
  have among : importPathBelow module.path below ∈
      (package.files.flatMap SourceFile.imports).map ImportSpec.path :=
    List.mem_map.mpr ⟨spec, List.mem_flatMap.mpr ⟨file, member, imports⟩, path⟩
  rw [← Except.ok.inj found, lookup_foldl_learn, if_pos among, named]
  rfl

/-- Where a package is loaded and where it is imported it goes by one name: the files of a directory
of the module that declare a name are loaded as the package with the import path of the directory,
and whatever imports that path inside the module knows it by that name. Import paths outside the
module are known to no package. -/
theorem importPath_names_package {directory : FilePath} {below : List Component} {name : String}
    (setting : Option String) (has : tree.HasModule module)
    (descends : directory.Descends module.root below)
    (some : ∃ path, tree.IsSource directory path name)
    (alike : ∀ path other, tree.IsSource directory path other → other = name) :
    (∀ path, tree.IsSource directory path name → ∃ package,
      loadPackage (tree.workspace setting) path = .ok package ∧
      package.metadata.path = importPathBelow module.path below ∧ package.metadata.name = name) ∧
    ∀ path package, loadPackage (tree.workspace setting) path = .ok package →
      ((∃ parent inner, path.parent? = .some parent ∧ parent.Descends module.root inner) →
        (∃ file ∈ package.files, ∃ spec ∈ file.imports,
          spec.path = importPathBelow module.path below) →
        package.metadata.deps.lookup (importPathBelow module.path below) = .some name) ∧
      ∀ imported, ¬IsWithin module.path imported →
        package.metadata.deps.lookup imported = none := by
  constructor
  · rintro path ⟨⟨text, held, named⟩, ⟨parent, up, inside⟩, -, -⟩
    obtain ⟨files, loads⟩ := exists_loadPackage setting held named
    obtain ⟨root, -, metadata⟩ := has.exists_findMetadata setting
      (descends.to_same inside) name files
    rw [up, Option.getD_some, metadata] at loads
    exact ⟨_, loads, by rw [ofFiles_metadata], by rw [ofFiles_metadata]⟩
  · intro path package loaded
    constructor
    · rintro ⟨parent, inner, up, inside⟩ imported
      obtain ⟨spelled, same, known⟩ := has.lookup_deps_inside loaded up inside descends imported
      rw [known, declaredIn_eq some alike same]
    · exact fun imported outside => has.lookup_deps_outside loaded outside

/-- A module of two packages: one is not called what its directory is, and the other imports it. -/
def twoPackages : FileTree :=
  ⟨[(⟨"/ws/go.mod"⟩, "module example.com/ws"), (⟨"/ws/lib/v2/a.go"⟩, "package lib"),
    (⟨"/ws/q/q.go"⟩, "package q\nimport \"example.com/ws/lib/v2\"")]⟩

theorem hasModule_twoPackages : twoPackages.HasModule ⟨⟨"/ws"⟩, "example.com/ws"⟩ where
  declared := ⟨"module example.com/ws", by decide, by decide⟩
  only := by decide

/-- The one source in a directory of that module. -/
theorem isSource_twoPackages :
    twoPackages.IsSource ⟨"/ws/lib/v2"⟩ ⟨"/ws/lib/v2/a.go"⟩ "lib" where
  held := ⟨"package lib", by decide, by decide⟩
  inside := ⟨⟨"/ws/lib/v2"⟩, by decide, by decide⟩
  source := by decide
  plain := by decide

/-- The package is loaded under its import path, and imported by the name it declares. A path that
only starts with the same letters as the module's is not known. -/
theorem importPath_names_twoPackages : ∃ package importer,
    loadPackage (twoPackages.workspace none) ⟨"/ws/lib/v2/a.go"⟩ = .ok package ∧
    package.metadata.path = "example.com/ws/lib/v2" ∧ package.metadata.name = "lib" ∧
    loadPackage (twoPackages.workspace none) ⟨"/ws/q/q.go"⟩ = .ok importer ∧
    importer.metadata.deps.lookup "example.com/ws/lib/v2" = some "lib" ∧
    importer.metadata.deps.lookup "example.com/wss" = none := by
  have alike : ∀ path other, twoPackages.IsSource ⟨"/ws/lib/v2"⟩ path other → other = "lib" := by
    intro path other source
    obtain ⟨text, held, -⟩ := source.held
    obtain ⟨file, member, same⟩ := FileTree.exists_mem_of_read? held
    obtain ⟨⟨text, held, named⟩, ⟨parent, up, inside⟩, -, -⟩ := source.of_same same
    -- Of the three files, one lies in the directory.
    have only : ∀ file ∈ twoPackages.files,
        (file.1.parent?.map fun parent => parent.same ⟨"/ws/lib/v2"⟩).getD false = true →
        file = (⟨"/ws/lib/v2/a.go"⟩, "package lib") := by decide
    have here := only file member (by rw [up]; exact inside)
    have read : twoPackages.read? ⟨"/ws/lib/v2/a.go"⟩ = some "package lib" := by decide
    have declares : (SourceFile.ofText ⟨"/ws/lib/v2/a.go"⟩ "package lib").packageName? =
        some "lib" := by decide
    subst here
    cases read.symm.trans held
    exact (Option.some.inj (declares.symm.trans named)).symm
  have descends : FilePath.Descends ⟨"/ws/lib/v2"⟩ ⟨"/ws"⟩ [.named "lib", .named "v2"] :=
    ⟨by decide, by decide⟩
  obtain ⟨loads, known⟩ := importPath_names_package none hasModule_twoPackages descends
    ⟨_, isSource_twoPackages⟩ alike
  obtain ⟨package, loaded, path, name⟩ := loads _ isSource_twoPackages
  have checked : (match loadPackage (twoPackages.workspace none) ⟨"/ws/q/q.go"⟩ with
    | .error _ => false
    | .ok importer => importer.files.any fun file => file.imports.any fun spec =>
        spec.path == "example.com/ws/lib/v2") = true := by decide
  split at checked
  · cases checked
  rename_i importer imported
  obtain ⟨file, member, imports⟩ := List.any_eq_true.mp checked
  obtain ⟨spec, among, same⟩ := List.any_eq_true.mp imports
  have below : importPathBelow "example.com/ws" [.named "lib", .named "v2"] =
      "example.com/ws/lib/v2" := by decide
  rw [below] at path known
  obtain ⟨inside, outside⟩ := known _ importer imported
  have within : FilePath.Descends ⟨"/ws/q"⟩ ⟨"/ws"⟩ [.named "q"] := ⟨by decide, by decide⟩
  refine ⟨package, importer, loaded, path, name, imported,
    inside ⟨⟨"/ws/q"⟩, _, by decide, within⟩ ⟨file, member, spec, among, eq_of_beq same⟩,
    outside _ (by decide)⟩

end Agreement

end Scaffold
