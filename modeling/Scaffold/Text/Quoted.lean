import Scaffold.Unicode.Visible

/-! Text between double quotes, with everything that cannot be shown written as an escape. -/

namespace Scaffold

/-- One character as it stands inside quotes. -/
def quotedChar (c : Char) : List Char :=
  -- Marks that would attach to the quote or the letter before are written by number.
  if c == '"' then ['\\', '"']
  else if c == '\\' then ['\\', '\\']
  else if c == '\n' then ['\\', 'n']
  else if c == '\r' then ['\\', 'r']
  else if c == '\t' then ['\\', 't']
  else if c.toNat == 0 then ['\\', '0']
  else if Unicode.isVisible c && !Unicode.isAttachingMark c then [c]
  else "\\u\x7b".toList ++ Nat.toDigits 16 c.toNat ++ "\x7d".toList

/-- A text between quotes, readable as one literal. -/
def quoted (text : String) : String :=
  String.ofList ('"' :: text.toList.flatMap quotedChar ++ ['"'])

end Scaffold
