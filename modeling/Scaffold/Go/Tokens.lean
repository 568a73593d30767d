import Scaffold.Go.Lexeme

/-! The tokens of a Go source with their places, and line breaks that end statements. -/

namespace Scaffold.Go

/-- How far a source has been read, and what stands before the next token. -/
structure Reach where
  offset : Nat := 0
  row : Nat := 0
  gap : List Char := []
  comments : List Comment := []
  ending : Bool := false

/-- The reach behind some more characters. -/
def Reach.advance (reach : Reach) (chars : List Char) : Reach :=
  { reach with
    offset := reach.offset + byteLength chars
    row := reach.row + chars.count '\n' }

/-- The token that stands at a reach. -/
def Reach.token (reach : Reach) (kind : TokenKind) (text : List Char) : Token :=
  ⟨kind, String.ofList text, reach.offset, reach.row, String.ofList reach.gap, reach.comments⟩

/-- The reach behind a token, with nothing before the next one yet. -/
def Reach.behindToken (reach : Reach) (kind : TokenKind) (text : List Char) : Reach :=
  { reach.advance text with
    gap := []
    comments := []
    ending := endsStatement kind (String.ofList text) }

/-- The comment that stands at a reach. -/
def Reach.comment (reach : Reach) (text : List Char) : Comment :=
  let behind := reach.advance text
  ⟨String.ofList text, reach.offset, behind.offset, reach.row, behind.row⟩

/-- The tokens made of elements from a reach on, closed by the token for the end. -/
def placeTokens (reach : Reach) : List Lexeme → List Token
  | [] => [reach.token .eof []]
  | .token kind text :: rest =>
    reach.token kind text :: placeTokens (reach.behindToken kind text) rest
  | .comment text :: rest =>
    placeTokens { reach.advance text with
      gap := reach.gap ++ text
      comments := reach.comments ++ [reach.comment text] } rest
  | .blank c :: rest =>
    -- Behind the end of a statement a line break is a token of its own.
    if c == '\n' && reach.ending then
      reach.token .terminator [c] :: placeTokens (reach.behindToken .terminator [c]) rest
    else placeTokens { reach.advance [c] with gap := reach.gap ++ [c] } rest

/-- The tokens of a source up to the first place where none begins, and whether there was none. -/
def tokens (text : List Char) : List Token × Bool :=
  let (elements, complete) := lexemes text
  (placeTokens {} elements, complete)

end Scaffold.Go
