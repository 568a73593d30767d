import Scaffold.Failure

/-! Workspaces: files that can be read and directories that can be listed. -/

namespace Scaffold

/-- What can be asked about the files of a workspace, and its setting for own imports. -/
structure Workspace (m : Type → Type) where
  /-- The text of a file, none if there is no such file. -/
  read : FilePath → m (Option String)
  /-- The files directly inside a directory, in order. -/
  list : FilePath → m (List FilePath)
  ownPrefix : Option String

/-- Files held in memory, in the order of their paths. -/
structure FileTree where
  files : List (FilePath × String)
  deriving DecidableEq, Repr, Inhabited

namespace FileTree

/-- No files. -/
def empty : FileTree :=
  ⟨[]⟩

/-- Puts a text under a path; a path that is there already keeps its spelling. -/
def insertInto (path : FilePath) (text : String) :
    List (FilePath × String) → List (FilePath × String)
  | [] => [(path, text)]
  | (other, held) :: rest =>
    if path.same other then (other, text) :: rest
    else if path.before other then (path, text) :: (other, held) :: rest
    else (other, held) :: insertInto path text rest

/-- The files with one added or replaced. -/
def insert (tree : FileTree) (path : FilePath) (text : String) : FileTree :=
  ⟨insertInto path text tree.files⟩

/-- The files without the one at a path. -/
def remove (tree : FileTree) (path : FilePath) : FileTree :=
  ⟨tree.files.filter fun (other, _) => !path.same other⟩

/-- The text of the file at a path. -/
def read? (tree : FileTree) (path : FilePath) : Option String :=
  (tree.files.find? fun (other, _) => path.same other).map Prod.snd

/-- The paths directly inside a directory. -/
def list (tree : FileTree) (directory : FilePath) : List FilePath :=
  (tree.files.map Prod.fst).filter fun path =>
    (path.parent?.map fun parent => parent.same directory).getD false

/-- The files added one after the other. -/
def ofList (files : List (FilePath × String)) : FileTree :=
  files.foldl (fun tree (path, text) => tree.insert path text) empty

/-- The files as a workspace, in which reading and listing never fail. -/
def workspace (tree : FileTree) (ownPrefix : Option String) : Workspace (Except Failure) :=
  ⟨fun path => .ok (tree.read? path), fun directory => .ok (tree.list directory), ownPrefix⟩

end FileTree

end Scaffold
