import Scaffold.Json
import Scaffold.Go.Lexeme

/-! The text that a string literal stands for. -/

namespace Scaffold.Go

/-- What stands between two backquotes, if the literal is written with them. -/
def betweenBackquotes? (literal : List Char) : Option (List Char) :=
  (afterPrefix? [backquote] literal).bind (beforeSuffix? [backquote])

/-- The text without the double quotes at its two ends. -/
def trimQuotes (text : List Char) : List Char :=
  dropTrailing (· == '"') (text.dropWhile (· == '"'))

/-- The text of a literal; escapes are understood where JSON has them too, and kept elsewhere. -/
def unquote (literal : String) : String :=
  -- A literal with an escape that JSON does not have only loses its quotes.
  let chars := literal.toList
  match betweenBackquotes? chars with
  | some raw => String.ofList raw
  | none => String.ofList ((Json.readText? chars).getD (trimQuotes chars))

end Scaffold.Go
