import Scaffold.Text.Bytes

/-! Tokens of Go source, each with the blank space and the comments before it. -/

namespace Scaffold.Go

/-- A comment and the bytes and rows it covers. -/
structure Comment where
  text : String
  start : Nat
  stop : Nat
  row : Nat
  stopRow : Nat
  deriving DecidableEq, Repr, Inhabited

/-- What a token is: only words may be chosen freely, only marks and keywords by their text. -/
inductive TokenKind
  | word
  | keyword
  | number
  | rune
  | text
  | mark
  | terminator
  | eof
  deriving DecidableEq, Repr, Inhabited

/-- A token at a byte offset and row, with the text between it and the token before. -/
structure Token where
  kind : TokenKind
  text : String
  start : Nat
  row : Nat
  gap : String
  comments : List Comment
  deriving DecidableEq, Repr, Inhabited

/-- The offset right behind a token. -/
def Token.stop (token : Token) : Nat :=
  token.start + byteLength token.text.toList

/-- Whether a token is the keyword or mark with a text. -/
def Token.isMark (token : Token) (text : String) : Bool :=
  (token.kind == .mark || token.kind == .keyword) && token.text == text

/-- The words that cannot be chosen as names. -/
def keywords : List String :=
  ["break", "case", "chan", "const", "continue", "default", "defer", "else", "fallthrough", "for",
    "func", "go", "goto", "if", "import", "interface", "map", "package", "range", "return",
    "select", "struct", "switch", "type", "var"]

/-- The marks of the language, longer ones before those they begin with. -/
def marks : List String :=
  ["<<=", ">>=", "&^=", "...", "<<", ">>", "&^", "+=", "-=", "*=", "/=", "%=", "&=", "|=", "^=",
    "&&", "||", "<-", "++", "--", "==", "!=", "<=", ">=", ":=", "+", "-", "*", "/", "%", "&", "|",
    "^", "<", ">", "=", "!", "(", ")", "[", "]", "\x7b", "\x7d", ",", ".", ":", "~"]

/-- Whether a line break right behind a token ends the statement. -/
def endsStatement (kind : TokenKind) (text : String) : Bool :=
  -- A statement can end with a name, a value, a closing mark or a jump without a target.
  match kind with
  | .word | .number | .rune | .text => true
  | .keyword => ["break", "continue", "fallthrough", "return"].contains text
  | .mark => ["++", "--", ")", "]", "\x7d"].contains text
  | .terminator | .eof => false

/-- The source text of consecutive tokens, from the first token to the last. -/
def sourceOf : List Token → String
  | [] => ""
  | first :: rest => first.text ++ rest.foldl (fun text token => text ++ token.gap ++ token.text) ""

end Scaffold.Go
