import Scaffold.FilePath
import Scaffold.Json
import Scaffold.Text.Edit

/-! Changes to files: new ones are created empty, present ones are edited. -/

namespace Scaffold

/-- One step of a list of changes. -/
inductive Change
  | create (path : FilePath)
  | edit (path : FilePath) (edits : List Edit)
  deriving DecidableEq, Repr, Inhabited

/-- The file a change is about. -/
def Change.path : Change → FilePath
  | .create path => path
  | .edit path _ => path

/-- An edit as a record. -/
def Edit.toJson (edit : Edit) : Json :=
  .record [("start", .number edit.start), ("end", .number edit.stop), ("new_text", .text edit.text)]

/-- A change as a record. -/
def Change.toJson : Change → Json
  | .create path => .record [("kind", .text "create"), ("path", .text path.text)]
  | .edit path edits =>
    .record [("kind", .text "edit"), ("path", .text path.text),
      ("edits", .list (edits.map Edit.toJson))]

end Scaffold
