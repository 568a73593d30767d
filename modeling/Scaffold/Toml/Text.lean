import Scaffold.Json
import Scaffold.Reading

/-! Text in settings files: between one or three quotes of either kind. -/

namespace Scaffold.Toml

/-- Whether a character may be written as itself. -/
def isPlainChar (c : Char) : Bool :=
  c == '\t' || (0x20 ≤ c.toNat && c.toNat != 0x7F)

/-- The character that an escape of one letter stands for. -/
def shortEscape? (c : Char) : Option Char :=
  if c == '"' || c == '\\' then some c
  else if c == 'b' then some (Char.ofNat 0x08)
  else if c == 't' then some '\t'
  else if c == 'n' then some '\n'
  else if c == 'f' then some (Char.ofNat 0x0C)
  else if c == 'r' then some '\r'
  else none

/-- The character that hexadecimal digits stand for. -/
def numberedChar? (digits : List Char) : Option Char := do
  let value ← Json.hexValue? digits
  if value.isValidChar then some (Char.ofNat value) else none

/-- A character in front of a text, together with what follows the text. -/
def continued (c : Char) : List Char × List Char → List Char × List Char
  | (text, rest) => (c :: text, rest)

/-- The text up to a closing quote, escapes understood, and what follows the quote. -/
def escapedBody : List Char → Option (List Char × List Char)
  | [] => none
  | '"' :: rest => some ([], rest)
  | '\\' :: 'u' :: a :: b :: c :: d :: rest => do
    let char ← numberedChar? [a, b, c, d]
    return continued char (← escapedBody rest)
  | '\\' :: 'U' :: a :: b :: c :: d :: e :: f :: g :: h :: rest => do
    let char ← numberedChar? [a, b, c, d, e, f, g, h]
    return continued char (← escapedBody rest)
  | '\\' :: c :: rest => do
    let char ← shortEscape? c
    return continued char (← escapedBody rest)
  | c :: rest =>
    if c == '\\' || !isPlainChar c then none else (escapedBody rest).map (continued c)

/-- Whether nothing but blanks comes before the next line break. -/
def isBreakAhead (text : List Char) : Bool :=
  match text.dropWhile fun c => c == ' ' || c == '\t' with
  | '\n' :: _ => true
  | '\r' :: '\n' :: _ => true
  | _ => false

/-- The text up to three closing quotes, escapes understood, and what follows the quotes. -/
def longEscapedBody (skipping : Bool) : List Char → Option (List Char × List Char)
  | [] => none
  -- Up to two quotes more belong to the text.
  | '"' :: '"' :: '"' :: '"' :: '"' :: rest => some (['"', '"'], rest)
  | '"' :: '"' :: '"' :: '"' :: rest => some (['"'], rest)
  | '"' :: '"' :: '"' :: rest => some ([], rest)
  | '\\' :: 'u' :: a :: b :: c :: d :: rest => do
    let char ← numberedChar? [a, b, c, d]
    return continued char (← longEscapedBody false rest)
  | '\\' :: 'U' :: a :: b :: c :: d :: e :: f :: g :: h :: rest => do
    let char ← numberedChar? [a, b, c, d, e, f, g, h]
    return continued char (← longEscapedBody false rest)
  | '\\' :: c :: rest =>
    match shortEscape? c with
    | some char => (longEscapedBody false rest).map (continued char)
    | none =>
      -- A backslash at the end of a line takes all blanks and breaks behind it away.
      if isBreakAhead (c :: rest) then longEscapedBody true rest else none
  | '\r' :: '\n' :: rest =>
    if skipping then longEscapedBody true rest
    else (longEscapedBody false rest).map (continued '\n')
  | c :: rest =>
    if skipping && (c == ' ' || c == '\t' || c == '\n') then longEscapedBody true rest
    else if c == '\\' || !(isPlainChar c || c == '\n') then none
    else (longEscapedBody false rest).map (continued c)

/-- The text up to a closing apostrophe, taken as it is, and what follows the apostrophe. -/
def plainBody : List Char → Option (List Char × List Char)
  | [] => none
  | '\'' :: rest => some ([], rest)
  | c :: rest => if isPlainChar c then (plainBody rest).map (continued c) else none

/-- The text up to three closing apostrophes, taken as it is, and what follows them. -/
def longPlainBody : List Char → Option (List Char × List Char)
  | [] => none
  | '\'' :: '\'' :: '\'' :: '\'' :: '\'' :: rest => some (['\'', '\''], rest)
  | '\'' :: '\'' :: '\'' :: '\'' :: rest => some (['\''], rest)
  | '\'' :: '\'' :: '\'' :: rest => some ([], rest)
  | '\r' :: '\n' :: rest => (longPlainBody rest).map (continued '\n')
  | c :: rest =>
    if isPlainChar c || c == '\n' then (longPlainBody rest).map (continued c) else none

/-- The text without a line break at its front. -/
def withoutFirstBreak (text : List Char) : List Char :=
  match text with
  | '\n' :: rest => rest
  | '\r' :: '\n' :: rest => rest
  | rest => rest

/-- Reads a text on one line. -/
def shortText : Reading Char (List Char) := fun text =>
  match text with
  | '"' :: rest => escapedBody rest
  | '\'' :: rest => plainBody rest
  | _ => none

/-- Reads a text on one line or on several. -/
def anyText : Reading Char (List Char) := fun text =>
  match text with
  | '"' :: '"' :: '"' :: rest => longEscapedBody false (withoutFirstBreak rest)
  | '\'' :: '\'' :: '\'' :: rest => longPlainBody (withoutFirstBreak rest)
  | other => shortText other

end Scaffold.Toml
