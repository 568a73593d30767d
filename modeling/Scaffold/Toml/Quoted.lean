import Scaffold.Json

/-! Text as it is written into settings files, in the plainest quotes that can hold it. -/

namespace Scaffold.Toml

/-- The length of the longest run of a character, given the length of the run before the text. -/
def longestRun (c : Char) (current : Nat) : List Char → Nat
  | [] => current
  | next :: rest =>
    if next == c then longestRun c (current + 1) rest else max current (longestRun c 0 rest)

/-- Whether a character can only be written by an escape, on one line or on several. -/
def isUnwritable (c : Char) : Bool :=
  c != '\t' && c != '\n' && (c.toNat < 0x20 || c.toNat == 0x7F)

/-- A character as it stands between quotes that span one line. -/
def escapedChar (c : Char) : List Char :=
  if c == '"' then ['\\', '"']
  else if c == '\\' then ['\\', '\\']
  else if c == '\n' then ['\\', 'n']
  else if c == '\r' then ['\\', 'r']
  else if c == '\t' then ['\\', 't']
  else if c.toNat == 0x08 then ['\\', 'b']
  else if c.toNat == 0x0C then ['\\', 'f']
  else if isUnwritable c then
    ['\\', 'u'] ++ (Json.fourDigits c.toNat).map Char.toUpper
  else [c]

/-- A text as it stands between three quotes, given the number of quotes right before it. -/
def longEscaped (quotes : Nat) : List Char → List Char
  | [] => []
  | c :: rest =>
    -- Every third quote of a run is escaped, or the run would end the text.
    if c == '"' then
      if quotes = 2 then '\\' :: '"' :: longEscaped 0 rest else '"' :: longEscaped (quotes + 1) rest
    else if c == '\n' then '\n' :: longEscaped 0 rest
    else escapedChar c ++ longEscaped 0 rest

/-- A text in the first kind of quotes that needs no escape, else in quotes with escapes. -/
def quoted (text : String) : List Char :=
  let chars := text.toList
  let unwritable := chars.any isUnwritable
  let backslash := chars.contains '\\'
  let broken := chars.contains '\n'
  let double := longestRun '"' 0 chars
  let single := longestRun '\'' 0 chars
  let short := '"' :: chars.flatMap escapedChar ++ ['"']
  let long := "\"\"\"\n".toList ++ longEscaped 0 chars ++ "\"\"\"".toList
  if !unwritable && !backslash && double = 0 && !broken then short
  else if !unwritable && single = 0 && !broken then '\'' :: chars ++ ['\'']
  else if !unwritable && !backslash && double ≤ 2 then long
  else if !unwritable && single ≤ 2 then "'''\n".toList ++ chars ++ "'''".toList
  else if broken then long
  else short

end Scaffold.Toml
