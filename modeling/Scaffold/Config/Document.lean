import Scaffold.Config
import Scaffold.Toml.Document
import Scaffold.Toml.Quoted

/-! Settings read from a settings file, and written into one. -/

namespace Scaffold.Config

open Toml

/-- The text under a key, if the key is there; anything but text is refused. -/
def textOf (value : Option Value) : Except ConfigError (Option String) :=
  match value with
  | none => .ok none
  | some (.text value) => .ok (some value)
  | some _ => .error .malformed

/-- The one setting of a section, which may also be a list with that setting at its front. -/
def settingOf (entries : Entries) (name key : String) : Except ConfigError (Option String) :=
  match entries.lookup name with
  | none => .ok none
  | some (.table _ inner) => textOf (inner.lookup key)
  | some (.list items) => textOf items.head?
  -- A date counts as a table of its parts, none of them a setting.
  | some (.date _) => .ok none
  | some _ => .error .malformed

/-- The settings in a settings file; keys that name no setting are passed over. -/
def ofText (text : String) : Except ConfigError Config :=
  match read? text with
  | none => .error .malformed
  | some entries => do
    let logLevel ← settingOf entries "general" "log_level"
    let ownPrefix ← settingOf entries "imports" "local_prefix"
    return ⟨logLevel.getD Config.default.logLevel, ownPrefix⟩

/-- A line that sets a key to a text. -/
def settingLine (key value : String) : String :=
  key ++ " = " ++ String.ofList (quoted value) ++ "\n"

/-- The settings as a settings file with one section for each concern. -/
def toText (config : Config) : String :=
  let imports := match config.ownPrefix with
    | none => ""
    | some ownPrefix => settingLine "local_prefix" ownPrefix
  "[general]\n" ++ settingLine "log_level" config.logLevel ++ "\n[imports]\n" ++ imports

/-- The settings as a record with one record for each concern. -/
def toJson (config : Config) : Json :=
  let imports := match config.ownPrefix with
    | none => []
    | some ownPrefix => [("local_prefix", Json.text ownPrefix)]
  .record [("general", .record [("log_level", .text config.logLevel)]),
    ("imports", .record imports)]

end Scaffold.Config
