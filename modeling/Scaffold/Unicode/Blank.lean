import Scaffold.Unicode.Range

/-! White space of every script. -/

namespace Scaffold.Unicode

/-- Code points with the property White_Space. -/
def blanks : List (Nat × Nat) :=
  [(0x9, 0xD), (0x20, 0x20), (0x85, 0x85), (0xA0, 0xA0), (0x1680, 0x1680), (0x2000, 0x200A),
    (0x2028, 0x2029), (0x202F, 0x202F), (0x205F, 0x205F), (0x3000, 0x3000)]

/-- Whether a character is white space. -/
def isBlank (c : Char) : Bool :=
  inRanges blanks c

/-- Text without the white space at its two ends. -/
def trimBlanks (text : List Char) : List Char :=
  -- The second end is trimmed by turning the text around.
  ((text.dropWhile isBlank).reverse.dropWhile isBlank).reverse

end Scaffold.Unicode
