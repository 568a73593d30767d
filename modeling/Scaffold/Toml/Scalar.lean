import Scaffold.Text.Split

/-! Numbers, dates and times of settings files, told apart by their spelling. -/

namespace Scaffold.Toml

/-- Whether a character may stand in a number, a date, a time or a truth value. -/
def isScalarChar (c : Char) : Bool :=
  c.isAlphanum || "+-._:".toList.contains c

/-- Whether digits stand in groups with single underscores between them. -/
def isGrouped (digit : Char → Bool) (text : List Char) : Bool :=
  (splitOn '_' text).all fun group => !group.isEmpty && group.all digit

/-- The text behind its sign, if it has one. -/
def unsigned (text : List Char) : List Char :=
  match text with
  | '+' :: rest => rest
  | '-' :: rest => rest
  | rest => rest

/-- Whether a text is a decimal number without a sign; only zero itself begins with a zero. -/
def isWhole (text : List Char) : Bool :=
  isGrouped Char.isDigit text && (text.length == 1 || text.head? != some '0')

/-- Whether a character is a digit in base sixteen. -/
def isHexDigit (c : Char) : Bool :=
  c.isDigit || ('a' ≤ c && c ≤ 'f') || ('A' ≤ c && c ≤ 'F')

/-- Whether a text is an integer in some base. -/
def isInteger (text : List Char) : Bool :=
  match text with
  | '0' :: 'x' :: digits => isGrouped isHexDigit digits
  | '0' :: 'o' :: digits => isGrouped (fun c => '0' ≤ c && c ≤ '7') digits
  | '0' :: 'b' :: digits => isGrouped (fun c => c == '0' || c == '1') digits
  | _ => isWhole (unsigned text)

/-- Whether a text is a whole number with a fraction behind a point. -/
def isFraction (text : List Char) : Bool :=
  match splitOn '.' text with
  | [whole, fraction] => isWhole whole && isGrouped Char.isDigit fraction
  | _ => false

/-- Whether a text is a number with a fraction or an exponent, or no finite number. -/
def isFloat (text : List Char) : Bool :=
  let body := unsigned text
  let (mantissa, exponent) := (body.takeWhile fun c => c != 'e' && c != 'E',
    body.dropWhile fun c => c != 'e' && c != 'E')
  if body == "inf".toList || body == "nan".toList then true
  else match exponent with
    | [] => isFraction mantissa
    | _ :: power =>
      (isWhole mantissa || isFraction mantissa) && isGrouped Char.isDigit (unsigned power)

/-- The number that exactly `count` digits stand for. -/
def digits? (count : Nat) (text : List Char) : Option Nat :=
  if text.length == count && text.all Char.isDigit then
    some (text.foldl (fun value c => 10 * value + (c.toNat - '0'.toNat)) 0)
  else none

/-- The number of days in a month. -/
def daysIn (year month : Nat) : Nat :=
  -- Every fourth year is longer, but of full centuries only every fourth.
  if month == 2 then
    if year % 4 == 0 && (year % 100 != 0 || year % 400 == 0) then 29 else 28
  else if [4, 6, 9, 11].contains month then 30 else 31

/-- Whether a text is a day of the calendar. -/
def isDay (text : List Char) : Bool :=
  match splitOn '-' text with
  | [year, month, day] =>
    match digits? 4 year, digits? 2 month, digits? 2 day with
    | some year, some month, some day =>
      1 ≤ month && month ≤ 12 && 1 ≤ day && day ≤ daysIn year month
    | _, _, _ => false
  | _ => false

/-- Whether a text is a number of seconds, perhaps with a fraction. -/
def isSeconds (text : List Char) : Bool :=
  -- A second may be inserted at the end of a minute.
  match splitOn '.' text with
  | [whole] => (digits? 2 whole).any (· ≤ 60)
  | [whole, fraction] =>
    (digits? 2 whole).any (· ≤ 60) && !fraction.isEmpty && fraction.all Char.isDigit
  | _ => false

/-- Whether a text is a time of day. -/
def isTime (text : List Char) : Bool :=
  match splitOn ':' text with
  | [hour, minute, second] =>
    (digits? 2 hour).any (· ≤ 23) && (digits? 2 minute).any (· ≤ 59) && isSeconds second
  | _ => false

/-- Whether a text is a distance from universal time. -/
def isOffset (text : List Char) : Bool :=
  match text with
  | ['Z'] => true
  | ['z'] => true
  | sign :: rest =>
    match splitOn ':' rest with
    | [hour, minute] =>
      (sign == '+' || sign == '-') && (digits? 2 hour).any (· ≤ 23)
        && (digits? 2 minute).any (· ≤ 59)
    | _ => false
  | [] => false

/-- Whether a text is a time of day, perhaps with a distance from universal time. -/
def isClock (text : List Char) : Bool :=
  let inTime (c : Char) : Bool := c.isDigit || c == ':' || c == '.'
  let offset := text.dropWhile inTime
  isTime (text.takeWhile inTime) && (offset.isEmpty || isOffset offset)

/-- Whether a text is a day, a time, or both with a letter between them. -/
def isDate (text : List Char) : Bool :=
  if isDay text || isTime text then true
  else match text.drop 10 with
    | mark :: clock => (mark == 'T' || mark == 't') && isDay (text.take 10) && isClock clock
    | [] => false

end Scaffold.Toml
