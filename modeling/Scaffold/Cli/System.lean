import Scaffold.Workspace

/-! What a run can ask of the system around it: files, directories and variables. -/

namespace Scaffold.Cli

/-- Why the system refuses something. -/
inductive SystemError
  | missing
  | isDirectory
  | notDirectory
  | notText
  | other (reason : String)
  deriving DecidableEq, Repr

/-- The wording of a refusal. -/
def SystemError.message : SystemError → String
  | .missing => "No such file or directory (os error 2)"
  | .isDirectory => "Is a directory (os error 21)"
  | .notDirectory => "Not a directory (os error 20)"
  | .notText => "stream did not contain valid UTF-8"
  | .other reason => reason

/-- The files, directories and variables a run can reach. -/
structure System (m : Type → Type) where
  read : FilePath → m (Except SystemError String)
  /-- The files directly inside a directory, without its subdirectories. -/
  list : FilePath → m (Except SystemError (List FilePath))
  isPresent : FilePath → m Bool
  write : FilePath → String → m (Except SystemError Unit)
  /-- Makes a directory and the directories it lies in. -/
  makeDirectory : FilePath → m (Except SystemError Unit)
  setting : String → Option String

/-- The result of asking the system, a refusal being a failure. -/
def orFail {m : Type → Type} [Monad m] {α : Type} (asked : m (Except SystemError α)) :
    ExceptT Failure m α := do
  match ← (asked : m _) with
  | .ok result => return result
  | .error error => throw (.io error.message)

/-- The system as a workspace, in which a missing file has no text. -/
def System.workspace {m : Type → Type} [Monad m] (system : System m) (ownPrefix : Option String) :
    Workspace (ExceptT Failure m) where
  read path := do
    match ← (system.read path : m _) with
    | .ok text => return some text
    | .error .missing => return none
    | .error error => throw (.io error.message)
  list directory := do
    let files ← orFail (system.list directory)
    return sortOrdered FilePath.beforeOrSame files
  ownPrefix := ownPrefix

end Scaffold.Cli
