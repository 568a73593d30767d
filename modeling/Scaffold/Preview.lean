import Scaffold.Change
import Scaffold.Workspace

/-! The files that changes lead to, worked out without writing any of them. -/

namespace Scaffold

variable {m : Type → Type} [Monad m] [MonadExcept Failure m]

/-- The files with one change made; what is not among them yet comes from the workspace. -/
def applyChange (workspace : Workspace m) (files : FileTree) : Change → m FileTree
  | .create path => do
    match ← workspace.read path with
    | some _ => throw (.createdTwice path)
    | none => return files.insert path ""
  | .edit path edits => do
    let text ← match files.read? path with
      | some text => pure text
      | none =>
        match ← workspace.read path with
        | some text => pure text
        | none => throw (.editedMissing path)
    match applyEdits text edits with
    | .error error => throw (.unfitEdit path error)
    | .ok edited => return (files.remove path).insert path edited

/-- The final texts of all files that changes touch. -/
def preview (workspace : Workspace m) (changes : List Change) : m FileTree :=
  changes.foldlM (applyChange workspace) .empty

end Scaffold
