import Scaffold.Toml.Scalar
import Scaffold.Toml.Table
import Scaffold.Toml.Text

/-! Settings files read line by line. -/

namespace Scaffold.Toml

open Reading

/-- A reader of characters that gives some result. -/
abbrev Reader (α : Type) := Reading Char α

/-- Reads one given character. -/
def char (wanted : Char) : Reader Char :=
  one (· == wanted)

/-- Reads blanks, if there are any. -/
def blanks : Reader Unit :=
  discard (run fun c => c == ' ' || c == '\t')

/-- Reads a line break. -/
def lineBreak : Reader Unit :=
  either (discard (char '\n')) (do
    let _ ← char '\r'
    discard (char '\n'))

/-- Reads a comment up to the end of its line. -/
def comment : Reader Unit := do
  let _ ← char '#'
  discard (run isPlainChar)

/-- Reads everything that may stand between the items of a list. -/
def gap : Reader Unit := do
  blanks
  let _ ← many (do
    let _ ← maybe comment
    lineBreak
    blanks)
  return ()

/-- Reads one part of a key. -/
def keyPart : Reader String := do
  let bare : Reader (List Char) := do
    let text ← run fun c => c.isAlphanum || c == '_' || c == '-'
    guard (!text.isEmpty)
    return text
  return String.ofList (← either shortText bare)

/-- Reads a key: the parts before the last one, and the last one. -/
def key : Reader (List String × String) := do
  let parts ← separatedBy (blanks *> char '.' *> blanks) keyPart
  return (parts.dropLast, parts.getLastD "")

/-- Reads a number, a truth value, a date or a time. -/
def scalar : Reader Value := do
  let text ← run isScalarChar
  let clock : Reader (List Char) := do
    -- A blank may stand between a day and a time.
    guard (isDay text)
    let _ ← char ' '
    let clock ← run isScalarChar
    guard (isClock clock)
    return clock
  match ← maybe clock with
  | some clock => return .date (String.ofList (text ++ ' ' :: clock))
  | none =>
    if text == "true".toList then return .truth true
    else if text == "false".toList then return .truth false
    else if isInteger text || isFloat text then return .number (String.ofList text)
    else if isDate text then return .date (String.ofList text)
    else failure

/-- Reads a list, given a reader for its items. -/
def list (value : Reader Value) : Reader Value := do
  let _ ← char '['
  gap
  let items ← maybe (separatedBy (char ',' *> gap) (value <* gap))
  if items.isSome then
    let _ ← maybe (char ',')
    gap
  let _ ← char ']'
  return .list (items.getD [])

/-- Reads a key with its value, given a reader for the value. -/
def entry (value : Reader Value) : Reader (List String × String × Value) := do
  let (path, name) ← key
  blanks
  let _ ← char '='
  blanks
  return (path, name, ← value)

/-- Reads a table between braces, given a reader for its values. -/
def table (value : Reader Value) : Reader Value := do
  let _ ← char '\x7b'
  blanks
  let items ← maybe (separatedBy (char ',' *> blanks) (entry value <* blanks))
  let _ ← char '\x7d'
  let entries ← (items.getD []).foldlM (fun (entries : Entries) (path, name, held) =>
    (liftM (entries.put? path name held .braced) : Reader Entries)) []
  return .table .braced entries

/-- Reads a value with at most `depth` values inside one another. -/
def valueWithin : Nat → Reader Value
  | 0 => failure
  | depth + 1 =>
    let value := valueWithin depth
    either (do return .text (String.ofList (← anyText)))
      (either (list value) (either (table value) scalar))

/-- What one line says. -/
inductive Line
  | empty
  | entry (path : List String) (name : String) (value : Value)
  | heading (path : List String) (name : String)
  | listHeading (path : List String) (name : String)

/-- Reads a line up to its break. -/
def line : Reader Line := do
  blanks
  let depth := (← remaining).length
  let listHeading : Reader Line := do
    let _ ← char '['
    let _ ← char '['
    let (path, name) ← blanks *> key <* blanks
    let _ ← char ']'
    let _ ← char ']'
    return .listHeading path name
  let heading : Reader Line := do
    let _ ← char '['
    let (path, name) ← blanks *> key <* blanks
    let _ ← char ']'
    return .heading path name
  let setting : Reader Line := do
    let (path, name, value) ← entry (valueWithin depth)
    return .entry path name value
  let found ← either listHeading (either heading (either setting (return .empty)))
  blanks
  let _ ← maybe comment
  return found

/-- Adds what a line says to what was said before, below the last heading. -/
def Line.addTo (said : Entries × List String) (line : Line) : Option (Entries × List String) :=
  let (entries, above) := said
  match line with
  | .empty => some said
  | .entry path name value => do
    let place (kind : TableKind) (inner : Entries) : Option Entries :=
      inner.put? path name value kind
    return (← entries.change? false place above .headed, above)
  | .heading path name => do return (← entries.open? path name, path ++ [name])
  | .listHeading path name => do return (← entries.openNext? path name, path ++ [name])

/-- The lines of a settings file, none if some part of it cannot be read. -/
def lines? (text : List Char) : Option (List Line) :=
  match separatedBy lineBreak line text with
  | some (lines, []) => some lines
  | _ => none

/-- The entries of a settings file, none if it is malformed. -/
def read? (text : String) : Option Entries := do
  -- A byte order mark may stand at the very start.
  let chars := match text.toList with
    | c :: rest => if c.toNat == 0xFEFF then rest else c :: rest
    | [] => []
  let said ← (← lines? chars).foldlM Line.addTo ([], [])
  return said.1

end Scaffold.Toml
