import Scaffold.Order
import Scaffold.Text.Bytes

/-! Replacements of byte ranges of a text, applied together. -/

namespace Scaffold

/-- The replacement of the bytes from `start` up to `stop` by a new text. -/
structure Edit where
  start : Nat
  stop : Nat
  text : String
  deriving DecidableEq, Repr, Inhabited

/-- An edit that only adds text. -/
def Edit.insertion (offset : Nat) (text : String) : Edit :=
  ⟨offset, offset, text⟩

/-- Why a list of edits cannot be applied to a text. -/
inductive EditError
  | outOfBounds (start stop : Nat)
  | overlapping (offset : Nat)
  | splitsCharacter (start stop : Nat)
  deriving DecidableEq, Repr

/-- The wording of an edit that cannot be applied. -/
def EditError.message : EditError → String
  | .outOfBounds start stop =>
    "edit range " ++ toString start ++ ".." ++ toString stop ++ " out of bounds"
  | .overlapping offset => "overlapping edit at offset " ++ toString offset
  | .splitsCharacter start stop =>
    "edit range " ++ toString start ++ ".." ++ toString stop ++ " splits a character"

/-- Applies edits in ascending order to what follows `cursor` in a text of `length` bytes. -/
def applyOrdered (length cursor : Nat) (rest : List Char) :
    List Edit → Except EditError (List Char)
  | [] => .ok rest
  | edit :: later =>
    if edit.stop < edit.start || length < edit.stop then
      .error (.outOfBounds edit.start edit.stop)
    else if edit.start < cursor then .error (.overlapping edit.start)
    else match cutAt (edit.start - cursor) rest with
      | none => .error (.splitsCharacter edit.start edit.stop)
      | some (kept, reached) =>
        match cutAt (edit.stop - edit.start) reached with
        | none => .error (.splitsCharacter edit.start edit.stop)
        | some (_, after) => do
          -- The text before the edit stays, the replaced text goes.
          let tail ← applyOrdered length edit.stop after later
          return kept ++ edit.text.toList ++ tail

/-- The edits by ascending start; edits that start together keep their order. -/
def orderEdits (edits : List Edit) : List Edit :=
  sortOrdered (fun first second => decide (first.start ≤ second.start)) edits

/-- The text with all edits applied. -/
def applyEdits (text : String) (edits : List Edit) : Except EditError String := do
  let chars ← applyOrdered (byteLength text.toList) 0 text.toList (orderEdits edits)
  return String.ofList chars

end Scaffold
