import Scaffold.Go.Token
import Scaffold.Unicode.Identifier

/-! Go source divided into blank characters, comments and tokens, before any position is known. -/

namespace Scaffold.Go

/-- One element of the source text. -/
inductive Lexeme
  | blank (c : Char)
  | comment (text : List Char)
  | token (kind : TokenKind) (text : List Char)
  deriving DecidableEq, Repr, Inhabited

/-- The characters of an element. -/
def Lexeme.chars : Lexeme → List Char
  | .blank c => [c]
  | .comment text => text
  | .token _ text => text

/-- Whether a character only separates tokens. -/
def isSpace (c : Char) : Bool :=
  c == ' ' || (0x09 ≤ c.toNat && c.toNat ≤ 0x0D)

/-- The text up to and including the mark that closes a block comment, and the rest. -/
def blockComment : List Char → Option (List Char × List Char)
  | '*' :: '/' :: rest => some (['*', '/'], rest)
  | c :: rest => (blockComment rest).map fun (text, after) => (c :: text, after)
  | [] => none

/-- The quote of text without escapes. -/
def backquote : Char :=
  Char.ofNat 0x60

/-- The text up to and including a closing backquote, and the rest. -/
def rawText : List Char → Option (List Char × List Char)
  | [] => none
  | c :: rest =>
    if c == backquote then some ([c], rest)
    else (rawText rest).map fun (text, after) => (c :: text, after)

/-- Whether a character is a hexadecimal digit. -/
def isHexDigit (c : Char) : Bool :=
  c.isDigit || ('a' ≤ c && c ≤ 'f') || ('A' ≤ c && c ≤ 'F')

/-- Whether the text behind a backslash, which begins with `c`, is an escape. -/
def escapeFits (c : Char) (rest : List Char) : Bool :=
  -- Numbered escapes need all their digits, any other character may follow a backslash.
  if c == 'x' then (rest.take 2).length == 2 && (rest.take 2).all isHexDigit
  else if c == 'u' then (rest.take 4).length == 4 && (rest.take 4).all isHexDigit
  else if c == 'U' then (rest.take 8).length == 8 && (rest.take 8).all isHexDigit
  else true

/-- The text up to and including a closing double quote on the same line, and the rest. -/
def interpretedText : List Char → Option (List Char × List Char)
  | [] => none
  | '\\' :: c :: rest =>
    if escapeFits c rest then
      (interpretedText rest).map fun (text, after) => ('\\' :: c :: text, after)
    else none
  | c :: rest =>
    if c == '"' then some ([c], rest)
    else if c == '\n' || c == '\\' then none
    else (interpretedText rest).map fun (text, after) => (c :: text, after)

/-- The number of digits behind the letter of a numbered escape, and none for other escapes. -/
def escapeDigits (c : Char) : Option Nat :=
  if c == 'x' then some 2
  else if c == 'u' then some 4
  else if c == 'U' then some 8
  else if ['a', 'b', 'f', 'n', 'r', 't', 'v', '\\', '\'', '"'].contains c then some 0
  else none

/-- What stands between single quotes, the closing quote included, and the rest. -/
def runeText : List Char → Option (List Char × List Char)
  | '\\' :: c :: rest =>
    -- An escape by octal number has three digits and no letter.
    let digits := if '0' ≤ c && c ≤ '7' then some 2 else escapeDigits c
    match digits with
    | none => none
    | some count =>
      let number := rest.take count
      if number.length == count && number.all isHexDigit then
        match rest.drop count with
        | '\'' :: after => some ('\\' :: c :: number ++ ['\''], after)
        | _ => none
      else none
  | c :: '\'' :: rest => if c == '\'' || c == '\\' then none else some ([c, '\''], rest)
  | _ => none

/-- Whether a character may stand in a number in base ten or below. -/
def isDigitOrLine (c : Char) : Bool :=
  c.isDigit || c == '_'

/-- Whether a character may stand in a number in base sixteen. -/
def isHexOrLine (c : Char) : Bool :=
  isHexDigit c || c == '_'

/-- The longest lead of characters satisfying a test, and the rest. -/
def leadingRun (test : Char → Bool) (chars : List Char) : List Char × List Char :=
  (chars.takeWhile test, chars.dropWhile test)

/-- An exponent behind one of two letters, if digits follow it. -/
def exponent (letters : List Char) : List Char → List Char × List Char
  | e :: sign :: digit :: rest =>
    if letters.contains e && (sign == '+' || sign == '-') && digit.isDigit then
      let (digits, after) := leadingRun isDigitOrLine rest
      (e :: sign :: digit :: digits, after)
    else if letters.contains e && sign.isDigit then
      let (digits, after) := leadingRun isDigitOrLine (digit :: rest)
      (e :: sign :: digits, after)
    else ([], e :: sign :: digit :: rest)
  | [e, digit] =>
    if letters.contains e && digit.isDigit then ([e, digit], []) else ([], [e, digit])
  | chars => ([], chars)

/-- The digits before and behind a point, an exponent and the imaginary unit, and the rest. -/
def numberTail (digit : Char → Bool) (letters : List Char) (chars : List Char) :
    List Char × List Char :=
  let (whole, rest) := leadingRun digit chars
  let (fraction, rest) := match rest with
    | '.' :: more =>
      let (digits, after) := leadingRun digit more
      ('.' :: digits, after)
    | other => ([], other)
  let (power, rest) := exponent letters rest
  match rest with
  | 'i' :: after => (whole ++ fraction ++ power ++ ['i'], after)
  | after => (whole ++ fraction ++ power, after)

/-- A number, whose first character has been seen to begin one, and the rest. -/
def numberText (chars : List Char) : List Char × List Char :=
  match chars with
  | '0' :: base :: rest =>
    if base == 'x' || base == 'X' then
      let (digits, after) := numberTail isHexOrLine ['p', 'P'] rest
      ('0' :: base :: digits, after)
    else if ['b', 'B', 'o', 'O'].contains base then
      let (digits, after) := leadingRun isDigitOrLine rest
      match after with
      | 'i' :: after => ('0' :: base :: digits ++ ['i'], after)
      | after => ('0' :: base :: digits, after)
    else numberTail isDigitOrLine ['e', 'E'] chars
  | _ => numberTail isDigitOrLine ['e', 'E'] chars

/-- The longest mark the text begins with, and the rest. -/
def markText (chars : List Char) : Option (List Char × List Char) :=
  (marks.find? fun mark => mark.toList.isPrefixOf chars).map fun mark =>
    (mark.toList, chars.drop mark.toList.length)

/-- A name or keyword. -/
def wordLexeme (text : List Char) : Lexeme :=
  .token (if keywords.contains (String.ofList text) then .keyword else .word) text

/-- The element that begins with a character, and the rest of the text. -/
def nextLexeme (c : Char) (rest : List Char) : Option (Lexeme × List Char) :=
  if isSpace c then some (.blank c, rest)
  else if c == '/' && rest.head? == some '/' then
    -- A line comment leaves its line break outside.
    let (text, after) := leadingRun (· != '\n') rest
    some (.comment (c :: text), after)
  else if c == '/' && rest.head? == some '*' then
    (blockComment rest.tail).map fun (text, after) => (.comment ('/' :: '*' :: text), after)
  else if Unicode.isIdentifierStart c then
    let (text, after) := leadingRun Unicode.isIdentifierContinue rest
    some (wordLexeme (c :: text), after)
  else if c.isDigit || (c == '.' && (rest.head?.map Char.isDigit).getD false) then
    let (text, after) := numberText (c :: rest)
    some (.token .number text, after)
  else if c == '"' then
    (interpretedText rest).map fun (text, after) => (.token .text (c :: text), after)
  else if c == backquote then
    (rawText rest).map fun (text, after) => (.token .text (c :: text), after)
  else if c == '\'' then
    (runeText rest).map fun (text, after) => (.token .rune (c :: text), after)
  else if c == ';' then some (.token .terminator [c], rest)
  else (markText (c :: rest)).map fun (text, after) => (.token .mark text, after)

/-- The elements of a text up to the first place where none begins, and whether there was none. -/
def lexemesWithin : Nat → List Char → List Lexeme × Bool
  | _, [] => ([], true)
  | 0, _ :: _ => ([], false)
  | limit + 1, c :: rest =>
    match nextLexeme c rest with
    | none => ([], false)
    | some (lexeme, after) =>
      let (more, complete) := lexemesWithin limit after
      (lexeme :: more, complete)

/-- The elements of a Go source, and whether they make up all of it. -/
def lexemes (text : List Char) : List Lexeme × Bool :=
  -- A byte order mark counts as blank at the very start and nowhere else.
  match text with
  | [] => ([], true)
  | c :: rest =>
    if c.toNat == 0xFEFF then
      let (more, complete) := lexemesWithin rest.length rest
      (.blank c :: more, complete)
    else lexemesWithin text.length text

end Scaffold.Go
