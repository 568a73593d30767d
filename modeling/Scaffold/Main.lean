import Scaffold.Cli.Run

/-! The program on a real system. -/

namespace Scaffold.Cli

/-- What an error of the system is here. -/
def systemError : IO.Error → SystemError
  | .noFileOrDirectory _ _ _ => .missing
  | .alreadyExists _ _ _ => .notDirectory
  | .inappropriateType _ code _ => if code == 20 then .notDirectory else .isDirectory
  | other => .other (toString other)

/-- A step with an error of the system as its result. -/
def attempt {α : Type} (step : IO α) : IO (Except SystemError α) := do
  match ← step.toBaseIO with
  | .ok result => return .ok result
  | .error error => return .error (systemError error)

/-- A path as the system takes it. -/
def entryAt (path : FilePath) : IO.FS.DirEntry :=
  ⟨path.text, ""⟩

/-- The text of a file, whose bytes must be text. -/
def readFile (path : FilePath) : IO (Except SystemError String) := do
  match ← attempt (IO.FS.readBinFile path.text) with
  | .error error => return .error error
  | .ok bytes =>
    match String.fromUTF8? bytes with
    | none => return .error .notText
    | some text => return .ok text

/-- The files directly inside a directory. -/
def listFiles (path : FilePath) : IO (List FilePath) := do
  let entries ← (entryAt path).root.readDir
  let files ← entries.toList.filterM fun entry => do
    return (← entry.path.symlinkMetadata).type == .file
  return files.map fun entry => path.join entry.fileName

/-- The real system, with the variables that a run looks at. -/
def realSystem (settings : List (String × String)) : System IO where
  read := readFile
  list path := attempt (listFiles path)
  isPresent path := (entryAt path).root.pathExists
  write path text := attempt (IO.FS.writeFile path.text text)
  makeDirectory path := attempt (IO.FS.createDirAll path.text)
  setting name := settings.lookup name

/-- The variables a run looks at, as far as they are set. -/
def readSettings : List String → IO (List (String × String))
  | [] => return []
  | name :: rest => do
    let more ← readSettings rest
    match ← IO.getEnv name with
    | none => return more
    | some value => return (name, value) :: more

end Scaffold.Cli

open Scaffold Scaffold.Cli in
/-- Runs the program, prints what it has to say, and ends with its exit code. -/
def main (arguments : List String) : IO UInt32 := do
  let settings ← readSettings [configPathVariable, logLevelVariable, ownPrefixVariable]
  let outcome ← Cli.run (realSystem settings) arguments
  IO.print outcome.output
  if outcome.code == 2 then IO.eprint usageLines
  match outcome.complaint with
  | none => return outcome.code.toUInt32
  | some complaint =>
    IO.eprintln ("✗ " ++ complaint)
    return outcome.code.toUInt32
