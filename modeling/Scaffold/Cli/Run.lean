import Scaffold.Cli.Arguments
import Scaffold.Cli.System
import Scaffold.Config.Document
import Scaffold.Preview
import Scaffold.Test.Generation

/-! Runs of the program: from arguments to what is printed and written. -/

namespace Scaffold.Cli

/-- Why a selection is none. -/
inductive SelectionError
  | zero (option : String)
  | halfEnd
  deriving DecidableEq, Repr

/-- The wording of a selection that is none. -/
def SelectionError.message : SelectionError → String
  | .zero option => option ++ " is one-based and must be at least 1"
  | .halfEnd => "--end-line and --end-column must be given together"

/-- A number counted from one as the number counted from zero. -/
def fromOne (value : Nat) (option : String) : Except SelectionError Nat :=
  match value with
  | 0 => .error (.zero option)
  | before + 1 => .ok before

/-- The location that a selection stands for; without an end it is a single place. -/
def Selection.location (selection : Selection) : Except SelectionError Location := do
  let start : Position := ⟨← fromOne selection.line "--line", ← fromOne selection.column "--column"⟩
  match selection.endLine, selection.endColumn with
  | none, none => return ⟨selection.file, .point start⟩
  | some line, some column =>
    return ⟨selection.file, start, ← fromOne line "--end-line", ← fromOne column "--end-column"⟩
  | _, _ => throw .halfEnd

/-- Why a run ends without its result. -/
inductive RunError
  | selection (error : SelectionError)
  | failure (failure : Failure)
  | unwritten (path : FilePath) (error : SystemError)
  | alreadyThere (path : FilePath)
  deriving DecidableEq, Repr

/-- The wording of a failed run; a refusal of the system is told with its cause behind it. -/
def RunError.message : RunError → String
  | .selection error => error.message
  | .failure (.io reason) => (Failure.io reason).message ++ ": " ++ reason
  | .failure cause => cause.message
  | .unwritten path error => "failed to write " ++ path.text ++ ": " ++ error.message
  | .alreadyThere path => path.text ++ " already exists (use --force to overwrite)"

/-- How a run ends: its exit code, what it prints, and its complaint. -/
structure Outcome where
  code : Nat
  output : String
  complaint : Option String
  deriving DecidableEq, Repr, Inhabited

variable {m : Type → Type} [Monad m]

/-- A step of a run. -/
abbrev Running (m : Type → Type) := ExceptT RunError m

/-- A step whose failures end the run. -/
def failing {α : Type} (step : ExceptT Failure m α) : Running m α := do
  match ← (step.run : m _) with
  | .ok result => return result
  | .error failure => throw (.failure failure)

/-- A result of the settings, failures of which end the run. -/
def configured {α : Type} (result : Except ConfigError α) : Running m α :=
  match result with
  | .ok value => return value
  | .error error => throw (.failure (.config error))

/-- The settings file of a run: the one asked for, the one a variable names, or the local one. -/
def configPath (system : System m) (asked : Option FilePath) : m (Option FilePath) := do
  match asked, system.setting configPathVariable with
  | some path, _ => return some path
  | none, some text => return some ⟨text⟩
  | none, none =>
    let found ← system.isPresent ⟨configFileName⟩
    return if found then some ⟨configFileName⟩ else none

/-- The settings of a run, read from its settings file, overridden and checked. -/
def loadConfig (system : System m) (asked : Option FilePath) : Running m Config := do
  let path ← (configPath system asked : m _)
  let held ← match path with
    | none => pure Config.default
    | some path =>
      match ← (system.read path : m _) with
      | .error error => throw (.failure (.config (.unreadable error.message)))
      | .ok text => configured (Config.ofText text)
  let config := held.override system.setting
  configured config.check
  return config

/-- Writes files one after the other. -/
def writeFiles (system : System m) : List (FilePath × String) → Running m Unit
  | [] => return ()
  | (path, text) :: rest => do
    match ← (system.write path text : m _) with
    | .error error => throw (.unwritten path error)
    | .ok () => writeFiles system rest

/-- The lines of a text, without the breaks between them and one at its end. -/
def textLines (text : String) : List (List Char) :=
  let pieces := splitOn '\n' text.toList
  let lines := if pieces.getLast? == some [] then pieces.dropLast else pieces
  lines.map fun line => (beforeSuffix? ['\r'] line).getD line

/-- A text shown with a bar in front of every line. -/
def listing (text : String) : String :=
  String.join ((textLines text).map fun line => "│ " ++ String.ofList line ++ "\n")

/-- Changed files as they are shown to a human reader. -/
def shownFiles (files : FileTree) (written : Bool) : String :=
  if written then
    String.join (files.files.map fun (path, _) => "✓ Updated " ++ path.text ++ "\n")
  else
    String.join (files.files.map fun (path, text) => "\n" ++ path.text ++ "\n" ++ listing text)
      ++ "ℹ Run again with --write to apply these changes\n"

/-- Changes as they are shown to another program. -/
def shownChanges (changes : List Change) (written : Bool) : String :=
  (Json.record [("changes", .list (changes.map Change.toJson)), ("written", .truth written)]).pretty
    ++ "\n"

/-- Adds a test and gives what is printed about it. -/
def runAddTest (system : System m) (config : Config) (selection : Selection) (write : Bool)
    (format : Format) : Running m String := do
  match selection.location with
  | .error error => throw (.selection error)
  | .ok location =>
    let workspace := system.workspace config.ownPrefix
    let changes ← failing (addTest workspace location)
    let files ← failing (preview workspace changes)
    if write then writeFiles system files.files
    match format with
    | .json => return shownChanges changes write
    | .human => return shownFiles files write

/-- What is printed about the settings. -/
def shownConfig (config : Config) (format : Format) : String :=
  match format with
  | .json => config.toJson.pretty ++ "\n"
  | .human => config.toText

/-- Writes the settings of a fresh start to a file, making the directory it lies in. -/
def saveDefaults (system : System m) (path : FilePath) : Running m Unit := do
  match path.parent? with
  | none => pure ()
  | some directory =>
    let present ← (system.isPresent directory : m _)
    if !directory.text.isEmpty && !present then
      match ← (system.makeDirectory directory : m _) with
      | .error error => throw (.failure (.config (.directoryNotMade error.message)))
      | .ok () => pure ()
  match ← (system.write path Config.default.toText : m _) with
  | .error error => throw (.failure (.config (.unwritable error.message)))
  | .ok () => return ()

/-- Writes a settings file, but not over another file unless that is wished for. -/
def runWriteConfig (system : System m) (path : FilePath) (force : Bool) : Running m String := do
  let present ← (system.isPresent path : m _)
  if present && !force then throw (.alreadyThere path)
  saveDefaults system path
  return "✓ Wrote default configuration to " ++ path.text ++ "\n"

/-- Does what an invocation asks for and gives what is printed. -/
def perform (system : System m) (invocation : Invocation) : Running m String := do
  let config ← loadConfig system invocation.config
  match invocation.command with
  | .addTest selection write => runAddTest system config selection write invocation.format
  | .showConfig => return shownConfig config invocation.format
  | .writeConfig path force => runWriteConfig system path force

/-- The line that tells the version. -/
def versionLine : String :=
  "testgen 0.1.0\n"

/-- The lines that tell how the program is called. -/
def usageLines : String :=
  "Usage: testgen add-test FILE --line N --column N [--end-line N --end-column N] [--write]\n"
    ++ "       testgen config show\n"
    ++ "       testgen config init [PATH] [--force]\n"
    ++ "Options: [--config PATH] [--format human|json] [--verbose] [--version] [--help]\n"

/-- Runs the program with some arguments. -/
def run (system : System m) (arguments : List String) : m Outcome := do
  match readArguments arguments with
  | .error .version => return ⟨0, versionLine, none⟩
  | .error .help => return ⟨0, usageLines, none⟩
  | .error .misuse => return ⟨2, "", none⟩
  | .ok invocation =>
    match ← (perform system invocation).run with
    | .ok output => return ⟨0, output, none⟩
    | .error error => return ⟨1, "", some error.message⟩

end Scaffold.Cli
