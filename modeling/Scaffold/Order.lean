/-! Lists put in order, with elements of equal rank left in the order they were given. -/

namespace Scaffold

/-- Puts an element before the first one it may precede. -/
def insertOrdered {α : Type} (le : α → α → Bool) (x : α) : List α → List α
  | [] => [x]
  | y :: rest => if le x y then x :: y :: rest else y :: insertOrdered le x rest

/-- The elements in order; of two that may stand either way, the first given stays first. -/
def sortOrdered {α : Type} (le : α → α → Bool) (xs : List α) : List α :=
  -- Inserting from the back meets earlier elements last, so they land in front of their equals.
  xs.foldr (insertOrdered le) []

/-- The list without an element equal to the one before it. -/
def dropRepeats {α : Type} [BEq α] : List α → List α
  | [] => []
  | [x] => [x]
  | x :: y :: rest => if x == y then dropRepeats (y :: rest) else x :: dropRepeats (y :: rest)

/-- Inserting adds one element and keeps all the others. -/
theorem insertOrdered_perm {α : Type} (le : α → α → Bool) (x : α) (xs : List α) :
    (insertOrdered le x xs).Perm (x :: xs) := by
  -- Each step past an element swaps it with the inserted one.
  induction xs with
  | nil => exact .refl _
  | cons y rest ih =>
    rw [insertOrdered]
    split
    · exact .refl _
    · exact (ih.cons y).trans (.swap x y rest)

/-- Sorting rearranges the list and neither adds nor loses an element. -/
theorem sortOrdered_perm {α : Type} (le : α → α → Bool) (xs : List α) :
    (sortOrdered le xs).Perm xs := by
  -- Every element enters by one insertion.
  induction xs with
  | nil => exact .refl _
  | cons x rest ih => exact (insertOrdered_perm le x _).trans (ih.cons x)

end Scaffold
