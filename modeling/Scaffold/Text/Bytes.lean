/-! Byte lengths of text, and text cut at a byte offset. -/

namespace Scaffold

/-- The number of bytes the characters take in UTF-8. -/
def byteLength : List Char → Nat
  | [] => 0
  | c :: rest => c.utf8Size + byteLength rest

/-- Cuts the characters at a byte offset; no cut falls inside a character or past the end. -/
def cutAt (offset : Nat) : List Char → Option (List Char × List Char)
  | [] => if offset = 0 then some ([], []) else none
  | c :: rest =>
    if offset = 0 then some ([], c :: rest)
    else if c.utf8Size ≤ offset then
      (cutAt (offset - c.utf8Size) rest).map fun (before, after) => (c :: before, after)
    else none

/-- The text between two byte offsets, empty when they are no cuts of it. -/
def sliceBytes (start stop : Nat) (text : List Char) : List Char :=
  -- The second cut counts from the first.
  match cutAt start text with
  | none => []
  | some (_, after) => ((cutAt (stop - start) after).map Prod.fst).getD []

@[simp] theorem byteLength_nil : byteLength [] = 0 := rfl

@[simp] theorem byteLength_cons (c : Char) (rest : List Char) :
    byteLength (c :: rest) = c.utf8Size + byteLength rest := rfl

/-- Byte lengths add up over concatenation. -/
@[simp] theorem byteLength_append (xs ys : List Char) :
    byteLength (xs ++ ys) = byteLength xs + byteLength ys := by
  -- One character at a time moves from the left list to the sum.
  induction xs with
  | nil => simp
  | cons c rest ih => simp [ih, Nat.add_assoc]

/-- Cutting right behind a prefix gives that prefix back. -/
theorem cutAt_append (before after : List Char) :
    cutAt (byteLength before) (before ++ after) = some (before, after) := by
  -- Each character of the prefix is shorter than what is left to cut.
  induction before with
  | nil => cases after <;> simp [cutAt]
  | cons c rest ih =>
    have positive : c.utf8Size + byteLength rest ≠ 0 := by
      have := c.utf8Size_pos
      omega
    rw [List.cons_append, byteLength_cons, cutAt, if_neg positive, if_pos (by omega),
      Nat.add_sub_cancel_left, ih, Option.map_some]

/-- A cut divides the text, and its first part has the length asked for. -/
theorem cutAt_eq_some {offset : Nat} {text before after : List Char}
    (cut : cutAt offset text = some (before, after)) :
    text = before ++ after ∧ byteLength before = offset := by
  -- The recursion takes one character off the text and its size off the offset.
  induction text generalizing offset before with
  | nil =>
    simp only [cutAt] at cut
    split at cut
    · cases cut
      simp_all
    · cases cut
  | cons c rest ih =>
    simp only [cutAt] at cut
    split at cut
    · cases cut
      simp_all
    · split at cut
      · obtain ⟨⟨inner, remaining⟩, found, rebuilt⟩ := Option.map_eq_some_iff.mp cut
        cases rebuilt
        obtain ⟨text, length⟩ := ih found
        subst text
        simp only [List.cons_append, true_and, byteLength_cons]
        omega
      · cases cut

end Scaffold
