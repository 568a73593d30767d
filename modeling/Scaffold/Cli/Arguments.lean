import Scaffold.Config
import Scaffold.FilePath

/-! The command line: options in any order, subcommands, and what they ask for. -/

namespace Scaffold.Cli

/-- How results are shown. -/
inductive Format
  | human
  | json
  deriving DecidableEq, Repr, Inhabited

/-- The format with a name. -/
def Format.ofName? (name : String) : Option Format :=
  if name == "human" then some .human else if name == "json" then some .json else none

/-- A stretch of a file, its lines and columns counted from one. -/
structure Selection where
  file : FilePath
  line : Nat
  column : Nat
  endLine : Option Nat
  endColumn : Option Nat
  deriving DecidableEq, Repr, Inhabited

/-- What is to be done. -/
inductive Command
  | addTest (selection : Selection) (write : Bool)
  | showConfig
  | writeConfig (path : FilePath) (force : Bool)
  deriving DecidableEq, Repr, Inhabited

/-- A command with the settings file and the format it is run with. -/
structure Invocation where
  command : Command
  config : Option FilePath
  format : Format
  deriving DecidableEq, Repr, Inhabited

/-- Why arguments do not lead to a command. -/
inductive Interruption
  | version
  | help
  | misuse
  deriving DecidableEq, Repr, Inhabited

/-- An option; one with a value says which values it takes. -/
structure OptionSpec where
  long : String
  short : Option Char
  value : Option (String → Bool)

/-- What the arguments of one level say: options by their long names, and operands. -/
structure Given where
  options : List (String × String)
  operands : List String
  deriving DecidableEq, Repr, Inhabited

/-- Nothing said yet. -/
def Given.nothing : Given :=
  ⟨[], []⟩

/-- Notes an option, which may be given once and only with a value it takes. -/
def Given.note (given : Given) (spec : OptionSpec) (value : String) : Except Interruption Given :=
  if spec.long == "version" then .error .version
  else if spec.long == "help" then .error .help
  else if (given.options.lookup spec.long).isSome then .error .misuse
  else if (spec.value.map fun takes => takes value).getD true then
    .ok { given with options := given.options ++ [(spec.long, value)] }
  else .error .misuse

/-- Whether an argument can follow an option as its value. -/
def canBeValue (argument : String) : Bool :=
  !beginsWith argument "-" || argument == "-"

/-- The options in a group of letters, and the option still waiting for its value, if any. -/
def noteLetters (specs : List OptionSpec) (given : Given) :
    List Char → Except Interruption (Given × Option OptionSpec)
  | [] => .ok (given, none)
  | letter :: rest =>
    match specs.find? fun spec => spec.short == some letter with
    | none => .error .misuse
    | some spec =>
      if spec.value.isNone then do noteLetters specs (← given.note spec "") rest
      else match rest with
        | [] => .ok (given, some spec)
        -- The value may be set off by an equals sign.
        | '=' :: value => do return (← given.note spec (String.ofList value), none)
        | value => do return (← given.note spec (String.ofList value), none)

/-- The option in an argument with two dashes, still waiting for its value if it has none. -/
def noteLong (specs : List OptionSpec) (given : Given) (body : List Char) :
    Except Interruption (Given × Option OptionSpec) :=
  let name := String.ofList (body.takeWhile (· != '='))
  match specs.find? fun spec => spec.long == name with
  | none => .error .misuse
  | some spec =>
    match spec.value, body.dropWhile (· != '=') with
    | none, [] => do return (← given.note spec "", none)
    | none, _ => .error .misuse
    | some _, [] => .ok (given, some spec)
    | some _, _ :: value => do return (← given.note spec (String.ofList value), none)

/-- The options in one argument, and the option still waiting for its value, if any. -/
def noteOptions (specs : List OptionSpec) (given : Given) (argument : String) :
    Except Interruption (Given × Option OptionSpec) :=
  match argument.toList with
  | '-' :: '-' :: body => noteLong specs given body
  | '-' :: letters => noteLetters specs given letters
  | _ => .error .misuse

/-- Reads arguments up to the name of a subcommand, which comes back with what follows it. -/
def scan (specs : List OptionSpec) (commands : List String) (given : Given) :
    List String → Except Interruption (Given × Option (String × List String))
  | [] => .ok (given, none)
  | argument :: rest =>
    if argument == "--" then
      -- Behind two dashes alone nothing is an option or a subcommand.
      .ok ({ given with operands := given.operands ++ rest }, none)
    else if !canBeValue argument then
      match noteOptions specs given argument with
      | .error reason => .error reason
      | .ok (given, none) => scan specs commands given rest
      | .ok (given, some spec) =>
        match rest with
        | [] => .error .misuse
        | value :: rest =>
          if !canBeValue value then .error .misuse
          else match given.note spec value with
            | .error reason => .error reason
            | .ok given => scan specs commands given rest
    else if commands.isEmpty then
      scan specs commands { given with operands := given.operands ++ [argument] } rest
    else if commands.contains argument then .ok (given, some (argument, rest))
    else .error .misuse

/-- The number that digits stand for, if it fits into 64 bits; a plus may stand before them. -/
def count? (text : String) : Option Nat :=
  let digits := (afterPrefix? ['+'] text.toList).getD text.toList
  let value := digits.foldl (fun value c => 10 * value + (c.toNat - '0'.toNat)) 0
  if !digits.isEmpty && digits.all Char.isDigit && value < UInt64.size then some value else none

/-- An option without a value. -/
def flag (long : String) (short : Option Char) : OptionSpec :=
  ⟨long, short, none⟩

/-- An option with a number. -/
def numberOption (long : String) (short : Option Char) : OptionSpec :=
  ⟨long, short, some fun text => (count? text).isSome⟩

/-- The options every level takes. -/
def sharedOptions : List OptionSpec :=
  [flag "help" (some 'h'), flag "verbose" (some 'v'),
    ⟨"config", some 'c', some fun text => !text.isEmpty⟩,
    ⟨"format", none, some fun text => (Format.ofName? text).isSome⟩]

/-- The options in front of a subcommand. -/
def topOptions : List OptionSpec :=
  flag "version" (some 'V') :: sharedOptions

/-- The options of adding a test. -/
def addTestOptions : List OptionSpec :=
  [numberOption "line" (some 'l'), numberOption "column" none, numberOption "end-line" none,
    numberOption "end-column" none, flag "write" (some 'w')] ++ sharedOptions

/-- The options of writing a settings file. -/
def writeConfigOptions : List OptionSpec :=
  flag "force" (some 'f') :: sharedOptions

namespace Given

/-- Whether an option was given. -/
def has (given : Given) (long : String) : Bool :=
  (given.options.lookup long).isSome

/-- The number given with an option. -/
def number? (given : Given) (long : String) : Option Nat :=
  (given.options.lookup long).bind count?

/-- The one operand, unless it is empty; a missing one may have a default. -/
def operand (given : Given) (default : Option String) : Except Interruption FilePath :=
  match given.operands, default with
  | [text], _ => if text.isEmpty then .error .misuse else .ok ⟨text⟩
  | [], some text => .ok ⟨text⟩
  | _, _ => .error .misuse

/-- The stretch of a file that the options select; a last line needs a last column. -/
def selection (given : Given) : Except Interruption Selection := do
  let file ← given.operand none
  match given.number? "line", given.number? "column" with
  | some line, some column =>
    if given.has "end-line" != given.has "end-column" then throw .misuse
    return ⟨file, line, column, given.number? "end-line", given.number? "end-column"⟩
  | _, _ => throw .misuse

end Given

/-- A command run with what the levels say; what a later level says goes first. -/
def invocation (command : Command) (levels : List Given) : Invocation :=
  let last (long : String) : Option String :=
    levels.reverse.findSome? fun level => level.options.lookup long
  ⟨command, (last "config").map FilePath.mk, ((last "format").bind Format.ofName?).getD .human⟩

/-- Reads the arguments of adding a test. -/
def readAddTest (top : Given) (arguments : List String) : Except Interruption Invocation := do
  let (given, _) ← scan addTestOptions [] .nothing arguments
  return invocation (.addTest (← given.selection) (given.has "write")) [top, given]

/-- Reads the arguments of showing or writing settings. -/
def readConfig (top : Given) (arguments : List String) : Except Interruption Invocation := do
  let (given, command) ← scan sharedOptions ["show", "init", "help"] .nothing arguments
  match command with
  | some ("show", rest) =>
    let (last, _) ← scan sharedOptions [] .nothing rest
    if !last.operands.isEmpty then throw .misuse
    return invocation .showConfig [top, given, last]
  | some ("init", rest) =>
    let (last, _) ← scan writeConfigOptions [] .nothing rest
    let path ← last.operand (some configFileName)
    return invocation (.writeConfig path (last.has "force")) [top, given, last]
  | some _ => throw .help
  | none => throw .misuse

/-- Reads the arguments of a run. -/
def readArguments (arguments : List String) : Except Interruption Invocation := do
  let (top, command) ← scan topOptions ["add-test", "config", "help"] .nothing arguments
  match command with
  | some ("add-test", rest) => readAddTest top rest
  | some ("config", rest) => readConfig top rest
  | some _ => throw .help
  | none => throw .misuse

end Scaffold.Cli
