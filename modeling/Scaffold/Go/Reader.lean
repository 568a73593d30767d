import Scaffold.Go.Token
import Scaffold.Reading

/-! Readers of Go tokens. -/

namespace Scaffold.Go

/-- A reader of tokens that gives some result. -/
abbrev Reader (α : Type) := Reading Token α

namespace Reader

open Reading

/-- Reads the keyword or mark with a text. -/
def mark (text : String) : Reader Token :=
  one (·.isMark text)

/-- Reads a freely chosen name. -/
def word : Reader Token :=
  one (·.kind == .word)

/-- Reads a text literal. -/
def literal : Reader Token :=
  one (·.kind == .text)

/-- Reads the end of a statement. -/
def done : Reader Token :=
  one (·.kind == .terminator)

/-- Reads one or more with commas between them. -/
def commaSeparated {α : Type} (reader : Reader α) : Reader (List α) :=
  separatedBy (mark ",") reader

end Reader

end Scaffold.Go
