import Scaffold.Text.Split
import Scaffold.Unicode.Blank

/-! The settings a run depends on, where they may be overridden, and when they are valid. -/

namespace Scaffold

/-- The settings of a run. -/
structure Config where
  /-- How much is logged. -/
  logLevel : String
  /-- Import path prefixes, with commas between them, that are grouped behind all others. -/
  ownPrefix : Option String
  deriving DecidableEq, Repr

/-- The settings in use when none are given. -/
def Config.default : Config :=
  ⟨"warn", none⟩

instance : Inhabited Config := ⟨.default⟩

/-- The file that settings are read from if it lies in the working directory. -/
def configFileName : String :=
  "testgen.toml"

/-- The variable that names another file to read settings from. -/
def configPathVariable : String :=
  "TESTGEN_CONFIG_PATH"

/-- The variable that overrides how much is logged. -/
def logLevelVariable : String :=
  "TESTGEN_LOG_LEVEL"

/-- The variable that overrides the prefixes of own import paths. -/
def ownPrefixVariable : String :=
  "TESTGEN_LOCAL_PREFIX"

/-- The log levels there are. -/
def logLevels : List String :=
  ["trace", "debug", "info", "warn", "error"]

/-- Why settings cannot be read, used or kept. -/
inductive ConfigError
  | unreadable (reason : String)
  | malformed
  | unknownLogLevel (level : String)
  | unusablePrefix (ownPrefix : String)
  | directoryNotMade (reason : String)
  | unwritable (reason : String)
  deriving DecidableEq, Repr

/-- The wording of failed settings. -/
def ConfigError.message : ConfigError → String
  | .unreadable reason => "Failed to read config file: " ++ reason
  | .malformed => "Failed to parse config file"
  | .unknownLogLevel level =>
    "Invalid log level '" ++ level ++ "'. Must be one of: " ++ joinStrings ", " logLevels
  | .unusablePrefix ownPrefix => "Invalid local import prefix '" ++ ownPrefix ++ "'"
  | .directoryNotMade reason => "Failed to create config directory: " ++ reason
  | .unwritable reason => "Failed to write config file: " ++ reason

namespace Config

/-- The settings with those replaced that a variable gives; an empty prefix stands for none. -/
def override (config : Config) (lookup : String → Option String) : Config :=
  let logLevel := (lookup logLevelVariable).getD config.logLevel
  let ownPrefix := match lookup ownPrefixVariable with
    | none => config.ownPrefix
    | some text => if text.isEmpty then none else some text
  ⟨logLevel, ownPrefix⟩

/-- Whether a prefix can be part of an import path. -/
def isUsablePrefix (ownPrefix : String) : Bool :=
  ownPrefix.toList.all fun c => !Unicode.isBlank c && c != '"'

/-- Checks that the log level exists and the prefix can be part of an import path. -/
def check (config : Config) : Except ConfigError Unit :=
  if !logLevels.contains config.logLevel then .error (.unknownLogLevel config.logLevel)
  else match config.ownPrefix with
    | none => .ok ()
    | some ownPrefix =>
      if isUsablePrefix ownPrefix then .ok () else .error (.unusablePrefix ownPrefix)

end Config

end Scaffold
