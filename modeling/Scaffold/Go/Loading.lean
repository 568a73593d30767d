import Scaffold.Go.Module
import Scaffold.Go.Package
import Scaffold.Workspace

/-! Packages gathered from the files of a workspace. -/

namespace Scaffold.Go

variable {m : Type → Type} [Monad m] [MonadExcept Failure m]

/-- The module declared in the first of some directories that declares one. -/
def moduleIn (workspace : Workspace m) : List FilePath → m (Option Module)
  | [] => return none
  | directory :: above => do
    let file := directory.join moduleFileName
    match ← workspace.read file with
    | none => moduleIn workspace above
    | some text =>
      match modulePath? text with
      | none => throw (.missingModule file)
      | some path => return some ⟨directory, path⟩

/-- The module around a directory. -/
def findModule (workspace : Workspace m) (directory : FilePath) : m (Option Module) :=
  moduleIn workspace directory.ancestors

/-- The Go files among some paths, read in order; a file that is gone is passed over. -/
def readSources (workspace : Workspace m) : List FilePath → m (List SourceFile)
  | [] => return []
  | path :: rest => do
    match ← workspace.read path with
    | none => readSources workspace rest
    | some text => return .ofText path text :: (← readSources workspace rest)

/-- The name that the first of some files with a package clause declares. -/
def declaredPackage (workspace : Workspace m) : List FilePath → m (Option String)
  | [] => return none
  | path :: rest => do
    match ← workspace.read path with
    | none => declaredPackage workspace rest
    | some text =>
      match (SourceFile.ofText path text).packageName? with
      | none => declaredPackage workspace rest
      | some name => return some name

/-- The names that the imported packages of a module declare, each looked up once. -/
def findDeps (workspace : Workspace m) (module : Module) (known : List (String × String)) :
    List String → m (List (String × String))
  | [] => return known
  | path :: rest => do
    match known.lookup path, module.directory? path with
    | none, some directory =>
      let listed ← workspace.list directory
      let sources := listed.filter fun file => file.isGoSource && !file.isGoTest
      match ← declaredPackage workspace sources with
      | none => findDeps workspace module known rest
      | some name => findDeps workspace module (insertKeyed path name known) rest
    | _, _ => findDeps workspace module known rest

/-- What a package is called, by the module around its directory. -/
def findMetadata (workspace : Workspace m) (directory : FilePath) (name : String)
    (files : List SourceFile) : m Metadata := do
  match ← findModule workspace directory with
  | none => return ⟨looseId, looseId, name, []⟩
  | some module =>
    let path := module.importPath directory
    let imports := (files.flatMap SourceFile.imports).map ImportSpec.path
    return ⟨path, path, name, ← findDeps workspace module [] imports⟩

/-- The package that the file at a path belongs to. -/
def loadPackage (workspace : Workspace m) (path : FilePath) : m Package := do
  let directory := path.parent?.getD ⟨""⟩
  match ← workspace.read path with
  | none => throw (.missingFile path)
  | some text =>
    let target := SourceFile.ofText path text
    match target.packageName? with
    | none => throw (.missingPackageClause path)
    | some name =>
      -- Test files belong to the package only if the file itself is one.
      let listed ← workspace.list directory
      let siblings ← readSources workspace (listed.filter fun file =>
        !file.same path && file.isGoSource && (path.isGoTest || !file.isGoTest))
      let members := siblings.filter fun file => file.packageName? == some name
      let files := sortOrdered (fun first second => first.path.beforeOrSame second.path)
        (members ++ [target])
      return .ofFiles (← findMetadata workspace directory name files) files

end Scaffold.Go
