import Scaffold.Text.Bytes

/-! Lines and columns of a text, and the byte offsets they stand for. -/

namespace Scaffold

/-- A place in a text by line and byte column, both counted from zero. -/
structure Position where
  line : Nat
  column : Nat
  deriving DecidableEq, Repr, Inhabited

/-- A stretch of text between two places. -/
structure Range where
  start : Position
  stop : Position
  deriving DecidableEq, Repr, Inhabited

/-- The empty stretch at one place. -/
def Range.point (place : Position) : Range :=
  ⟨place, place⟩

/-- Why a place or a stretch does not lie in a text. -/
inductive PositionError
  | lineOutOfRange (line lineCount : Nat)
  | columnOutOfRange (column line : Nat)
  | endBeforeStart
  deriving DecidableEq, Repr

/-- The wording of a misplaced position. -/
def PositionError.message : PositionError → String
  | .lineOutOfRange line lineCount =>
    "line " ++ toString line ++ " out of range (file has " ++ toString lineCount ++ " lines)"
  | .columnOutOfRange column line =>
    "column " ++ toString column ++ " out of range on line " ++ toString line
  | .endBeforeStart => "range end precedes start"

/-- Where each line of a text begins, and the length of the text, in bytes. -/
structure LineIndex where
  starts : List Nat
  length : Nat
  deriving DecidableEq, Repr

/-- The offsets right behind each line break, counting from the offset of the first character. -/
def startsBehindBreaks (offset : Nat) : List Char → List Nat
  | [] => []
  | c :: rest =>
    let next := offset + c.utf8Size
    if c == '\n' then next :: startsBehindBreaks next rest else startsBehindBreaks next rest

/-- The line index of a text. -/
def LineIndex.ofText (text : String) : LineIndex :=
  -- The first line begins at the start even if the text is empty.
  ⟨0 :: startsBehindBreaks 0 text.toList, byteLength text.toList⟩

/-- The byte offset of a place; a column may be at most the length of its line. -/
def LineIndex.offset (index : LineIndex) (place : Position) : Except PositionError Nat :=
  match index.starts[place.line]? with
  | none => .error (.lineOutOfRange place.line index.starts.length)
  | some start =>
    -- A line ends before the break that begins the next one, the last line with the text.
    let stop := match index.starts[place.line + 1]? with
      | some next => next - 1
      | none => index.length
    if start + place.column > stop then .error (.columnOutOfRange place.column place.line)
    else .ok (start + place.column)

/-- The place of a byte offset; an offset past the end stands for the end. -/
def LineIndex.position (index : LineIndex) (offset : Nat) : Position :=
  -- The line of an offset is the last one that begins at or before it.
  let offset := min offset index.length
  let begun := index.starts.takeWhile (· ≤ offset)
  ⟨begun.length - 1, offset - begun.getLastD 0⟩

/-- The two byte offsets of a stretch of text. -/
def LineIndex.offsets (index : LineIndex) (range : Range) : Except PositionError (Nat × Nat) := do
  let start ← index.offset range.start
  let stop ← index.offset range.stop
  if stop < start then throw .endBeforeStart
  return (start, stop)

end Scaffold
