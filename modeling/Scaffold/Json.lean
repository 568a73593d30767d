import Scaffold.Text.Split

/-! JSON values, their indented text, and the reading of JSON strings. -/

namespace Scaffold

/-- A JSON value; the fields of a record keep the order they are given in. -/
inductive Json
  | text (value : String)
  | number (value : Nat)
  | truth (value : Bool)
  | list (items : List Json)
  | record (fields : List (String × Json))

namespace Json

/-- The four hexadecimal digits of a small number. -/
def fourDigits (value : Nat) : List Char :=
  let digits := Nat.toDigits 16 value
  List.replicate (4 - digits.length) '0' ++ digits

/-- One character as it stands inside a JSON string. -/
def escapedChar (c : Char) : List Char :=
  -- Control characters without a short escape are written by number.
  if c == '"' then ['\\', '"']
  else if c == '\\' then ['\\', '\\']
  else if c == '\n' then ['\\', 'n']
  else if c == '\r' then ['\\', 'r']
  else if c == '\t' then ['\\', 't']
  else if c.toNat == 0x08 then ['\\', 'b']
  else if c.toNat == 0x0C then ['\\', 'f']
  else if c.toNat < 0x20 then ['\\', 'u'] ++ fourDigits c.toNat
  else [c]

/-- A text as a JSON string. -/
def quotedText (text : String) : List Char :=
  '"' :: text.toList.flatMap escapedChar ++ ['"']

/-- A line break followed by the indentation of a depth. -/
def breakLine (depth : Nat) : List Char :=
  '\n' :: List.replicate (2 * depth) ' '

mutual

/-- A value with one item or field on a line, nested values two columns further in. -/
def indented (depth : Nat) : Json → List Char
  | .text value => quotedText value
  | .number value => (toString value).toList
  | .truth value => (toString value).toList
  | .list [] => ['[', ']']
  | .list (item :: rest) =>
    '[' :: indentedItems (depth + 1) (item :: rest) ++ breakLine depth ++ [']']
  | .record [] => ['\x7b', '\x7d']
  | .record (field :: rest) =>
    '\x7b' :: indentedFields (depth + 1) (field :: rest) ++ breakLine depth ++ ['\x7d']

/-- The items of a list, each on its own line. -/
def indentedItems (depth : Nat) : List Json → List Char
  | [] => []
  | [item] => breakLine depth ++ indented depth item
  | item :: next :: rest =>
    breakLine depth ++ indented depth item ++ ',' :: indentedItems depth (next :: rest)

/-- The fields of a record, each on its own line. -/
def indentedFields (depth : Nat) : List (String × Json) → List Char
  | [] => []
  | [(key, value)] => breakLine depth ++ quotedText key ++ ':' :: ' ' :: indented depth value
  | (key, value) :: next :: rest =>
    breakLine depth ++ quotedText key ++ ':' :: ' ' :: indented depth value
      ++ ',' :: indentedFields depth (next :: rest)

end

/-- The indented text of a value. -/
def pretty (value : Json) : String :=
  String.ofList (indented 0 value)

/-- The value of a hexadecimal digit. -/
def hexDigit? (c : Char) : Option Nat :=
  if '0' ≤ c && c ≤ '9' then some (c.toNat - '0'.toNat)
  else if 'a' ≤ c && c ≤ 'f' then some (c.toNat - 'a'.toNat + 10)
  else if 'A' ≤ c && c ≤ 'F' then some (c.toNat - 'A'.toNat + 10)
  else none

/-- The value of hexadecimal digits, most significant first. -/
def hexValue? (digits : List Char) : Option Nat :=
  digits.foldlM (fun value c => (hexDigit? c).map (16 * value + ·)) 0

/-- The character a one-letter escape stands for. -/
def shortEscape? (c : Char) : Option Char :=
  if c == '"' || c == '\\' || c == '/' then some c
  else if c == 'b' then some (Char.ofNat 0x08)
  else if c == 'f' then some (Char.ofNat 0x0C)
  else if c == 'n' then some '\n'
  else if c == 'r' then some '\r'
  else if c == 't' then some '\t'
  else none

/-- The rest of a string behind its opening quote: its text, and what follows the closing quote. -/
def readBody : List Char → Option (List Char × List Char)
  | [] => none
  | '"' :: rest => some ([], rest)
  | '\\' :: 'u' :: a :: b :: c :: d :: rest =>
    match hexValue? [a, b, c, d] with
    | none => none
    | some high =>
      if 0xDC00 ≤ high && high ≤ 0xDFFF then none
      else if 0xD800 ≤ high && high ≤ 0xDBFF then
        -- The first half of a pair needs its second half right behind it.
        match rest with
        | '\\' :: 'u' :: e :: f :: g :: h :: rest =>
          match hexValue? [e, f, g, h] with
          | none => none
          | some low =>
            if 0xDC00 ≤ low && low ≤ 0xDFFF then
              (readBody rest).map fun (value, after) =>
                (Char.ofNat (0x10000 + 0x400 * (high - 0xD800) + (low - 0xDC00)) :: value, after)
            else none
        | _ => none
      else (readBody rest).map fun (value, after) => (Char.ofNat high :: value, after)
  | '\\' :: c :: rest =>
    (shortEscape? c).bind fun escaped =>
      (readBody rest).map fun (value, after) => (escaped :: value, after)
  | c :: rest =>
    if c == '\\' || c.toNat < 0x20 then none
    else (readBody rest).map fun (value, after) => (c :: value, after)

/-- Whether JSON allows the character around a value. -/
def isPadding (c : Char) : Bool :=
  c == ' ' || c == '\t' || c == '\n' || c == '\r'

/-- The text of a JSON string, which may have white space around it. -/
def readText? (text : List Char) : Option (List Char) :=
  match text.dropWhile isPadding with
  | '"' :: rest =>
    match readBody rest with
    | some (value, after) => if after.all isPadding then some value else none
    | none => none
  | _ => none

end Json

end Scaffold
