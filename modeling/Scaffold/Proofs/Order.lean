import Mathlib.Data.List.Sort
import Scaffold.Order

/-! Sorted lists: what is known of their order, and how little of it depends on the list sorted. -/

namespace Scaffold

variable {α : Type} {le : α → α → Bool}

/-- Any two elements may stand one way or the other, and an order of three follows from two. -/
structure IsOrder (le : α → α → Bool) : Prop where
  total : ∀ first second, le first second = true ∨ le second first = true
  trans : ∀ {first second third}, le first second = true → le second third = true →
    le first third = true

/-- Sorting is insertion sort. -/
theorem sortOrdered_eq (le : α → α → Bool) (xs : List α) :
    sortOrdered le xs = xs.insertionSort (fun first second => le first second = true) := by
  have insert : ∀ (x : α) (ys : List α), insertOrdered le x ys =
      ys.orderedInsert (fun first second => le first second = true) x := by
    intro x ys
    induction ys with
    | nil => rfl
    | cons y ys ih => rw [insertOrdered, List.orderedInsert_cons, ih]
  induction xs with
  | nil => rfl
  | cons x xs ih => rw [List.insertionSort_cons, ← ih, ← insert]; rfl

theorem mem_sortOrdered {x : α} {xs : List α} : x ∈ sortOrdered le xs ↔ x ∈ xs :=
  (sortOrdered_perm le xs).mem_iff

/-- A sorted list is in order. -/
theorem sortOrdered_pairwise (order : IsOrder le) (xs : List α) :
    (sortOrdered le xs).Pairwise fun first second => le first second = true := by
  have total : Std.Total fun first second : α => le first second = true := ⟨order.total⟩
  have trans : IsTrans α fun first second => le first second = true := ⟨fun _ _ _ => order.trans⟩
  rw [sortOrdered_eq]
  exact List.pairwise_insertionSort _ xs

/-- A list that is in order stays as it is. -/
theorem sortOrdered_of_pairwise {xs : List α}
    (ordered : xs.Pairwise fun first second => le first second = true) : sortOrdered le xs = xs := by
  rw [sortOrdered_eq]
  exact ordered.insertionSort_eq

/-- What may stand behind all others is sorted to the end. -/
theorem sortOrdered_concat {xs : List α} {last : α} (behind : ∀ x ∈ xs, le x last = true) :
    sortOrdered le (xs ++ [last]) = sortOrdered le xs ++ [last] := by
  have insert : ∀ (x : α) (ys : List α), le x last = true →
      insertOrdered le x (ys ++ [last]) = insertOrdered le x ys ++ [last] := by
    intro x ys before
    induction ys with
    | nil => simp [insertOrdered, before]
    | cons y ys ih =>
      rw [List.cons_append, insertOrdered, insertOrdered, ih]
      split <;> rfl
  induction xs with
  | nil => rfl
  | cons x xs ih =>
    have rest := ih fun y member => behind y (List.mem_cons_of_mem _ member)
    rw [sortOrdered] at rest
    rw [List.cons_append, sortOrdered, List.foldr_cons, rest, insert x _ (behind x (by simp))]
    rfl

/-- Lists of the same elements are sorted to one list if no two elements may stand either way. -/
theorem sortOrdered_eq_of_perm (order : IsOrder le)
    (strict : ∀ first second, le first second = true → le second first = true → first = second)
    {xs ys : List α} (perm : xs.Perm ys) : sortOrdered le xs = sortOrdered le ys := by
  have same := ((sortOrdered_perm le xs).trans perm).trans (sortOrdered_perm le ys).symm
  exact same.eq_of_pairwise (fun first second _ _ => strict first second)
    (sortOrdered_pairwise order xs) (sortOrdered_pairwise order ys)

/-- In an ordered list, leaving elements out and inserting one may be exchanged. -/
private theorem filter_insertOrdered (order : IsOrder le) (keep : α → Bool) (x : α) {xs : List α}
    (ordered : xs.Pairwise fun first second => le first second = true) :
    (insertOrdered le x xs).filter keep =
      if keep x then insertOrdered le x (xs.filter keep) else xs.filter keep := by
  induction xs with
  | nil => by_cases kept : keep x = true <;> simp [insertOrdered, kept]
  | cons y ys ih =>
    obtain ⟨least, ordered⟩ := List.pairwise_cons.mp ordered
    rw [insertOrdered]
    by_cases before : le x y = true
    · -- The new element stands in front of the first one that is kept, whichever that is.
      have front : ∀ z ∈ (y :: ys).filter keep, le x z = true := by
        intro z member
        rcases List.mem_cons.mp (List.mem_of_mem_filter member) with rfl | later
        · exact before
        · exact order.trans before (least z later)
      rw [if_pos before, List.filter_cons]
      generalize (y :: ys).filter keep = kept at front
      cases kept with
      | nil => rfl
      | cons z zs => rw [insertOrdered, if_pos (front z (by simp))]
    · rw [if_neg before, List.filter_cons, List.filter_cons, ih ordered]
      by_cases kept : keep y = true
      · rw [if_pos kept, if_pos kept, insertOrdered, if_neg before]
        split <;> rfl
      · rw [if_neg kept, if_neg kept]

/-- The elements kept of a sorted list are the kept elements, sorted. -/
theorem filter_sortOrdered (order : IsOrder le) (keep : α → Bool) (xs : List α) :
    (sortOrdered le xs).filter keep = sortOrdered le (xs.filter keep) := by
  induction xs with
  | nil => rfl
  | cons x xs ih =>
    have ordered := sortOrdered_pairwise order xs
    rw [sortOrdered] at ih ordered
    rw [sortOrdered, List.foldr_cons, filter_insertOrdered order keep x ordered, ih,
      List.filter_cons]
    split <;> rfl

/-- What may stand in front of all others is inserted in front of them. -/
private theorem insertOrdered_front {x : α} {xs : List α} (front : ∀ y ∈ xs, le x y = true) :
    insertOrdered le x xs = x :: xs := by
  cases xs with
  | nil => rfl
  | cons y xs => rw [insertOrdered, if_pos (front y (by simp))]

/-- What may not stand in front of some elements is inserted behind them. -/
private theorem insertOrdered_append {x : α} {xs : List α} (ys : List α)
    (behind : ∀ y ∈ xs, le x y = false) :
    insertOrdered le x (xs ++ ys) = xs ++ insertOrdered le x ys := by
  induction xs with
  | nil => rfl
  | cons y xs ih =>
    rw [List.cons_append, insertOrdered, if_neg (by simp [behind y (by simp)]),
      ih fun z member => behind z (List.mem_cons_of_mem _ member), List.cons_append]

/-- A new element comes in front of those with its key, behind those with lesser ones. -/
private theorem insertOrdered_flatMap {κ : Type} [LinearOrder κ] {key : α → κ}
    (keyed : ∀ x y, le x y = decide (key x ≤ key y)) {keys : List κ}
    (ascending : keys.Pairwise (· < ·)) (x : α) (xs : List α) (listed : key x ∈ keys) :
    insertOrdered le x (keys.flatMap fun k => xs.filter fun y => key y = k) =
      keys.flatMap fun k => (x :: xs).filter fun y => key y = k := by
  induction keys with
  | nil => cases listed
  | cons k keys ih =>
    obtain ⟨least, ascending⟩ := List.pairwise_cons.mp ascending
    rw [List.flatMap_cons, List.flatMap_cons]
    by_cases here : key x = k
    · have front : ∀ y ∈ xs.filter (fun y => key y = k) ++
          keys.flatMap (fun k => xs.filter fun y => key y = k), le x y = true := by
        intro y member
        rw [keyed, here, decide_eq_true_iff]
        rcases List.mem_append.mp member with one | further
        · exact (of_decide_eq_true (List.mem_filter.mp one).2).ge
        · obtain ⟨other, inside, member⟩ := List.mem_flatMap.mp further
          rw [of_decide_eq_true (List.mem_filter.mp member).2]
          exact (least other inside).le
      have others : ∀ other ∈ keys, (x :: xs).filter (fun y => key y = other) =
          xs.filter fun y => key y = other := by
        intro other inside
        exact List.filter_cons_of_neg (by simpa [here] using (least other inside).ne)
      rw [insertOrdered_front front, List.filter_cons_of_pos (by simpa using here),
        List.flatMap_congr others]
      rfl
    · have later : key x ∈ keys := (List.mem_cons.mp listed).resolve_left here
      have behind : ∀ y ∈ xs.filter (fun y => key y = k), le x y = false := by
        intro y member
        rw [keyed, decide_eq_false_iff_not, of_decide_eq_true (List.mem_filter.mp member).2, not_le]
        exact least _ later
      rw [insertOrdered_append _ behind, ih ascending later,
        List.filter_cons_of_neg (by simpa using here)]

/-- Sorted by a key, the elements of each key stand together, in the order they were given. -/
theorem sortOrdered_eq_flatMap {κ : Type} [LinearOrder κ] {key : α → κ}
    (keyed : ∀ x y, le x y = decide (key x ≤ key y)) {keys : List κ}
    (ascending : keys.Pairwise (· < ·)) {xs : List α} (listed : ∀ x ∈ xs, key x ∈ keys) :
    sortOrdered le xs = keys.flatMap fun k => xs.filter fun x => key x = k := by
  induction xs with
  | nil => simp [sortOrdered]
  | cons x xs ih =>
    have rest := ih fun y member => listed y (List.mem_cons_of_mem _ member)
    rw [sortOrdered] at rest
    rw [sortOrdered, List.foldr_cons, rest]
    exact insertOrdered_flatMap keyed ascending x xs (listed x (by simp))

/-- Ordered lists are the same if they hold the same elements of each key, in the same order. -/
theorem eq_of_filter_key {κ : Type} [LinearOrder κ] {key : α → κ} {xs ys : List α}
    (ascending : xs.Pairwise fun first second => key first ≤ key second)
    (ascending' : ys.Pairwise fun first second => key first ≤ key second)
    (same : ∀ k, xs.filter (fun x => key x == k) = ys.filter fun y => key y == k) : xs = ys := by
  induction xs generalizing ys with
  | nil =>
    cases ys with
    | nil => rfl
    | cons y ys => simpa using same (key y)
  | cons x xs ih =>
    obtain ⟨least, ascending⟩ := List.pairwise_cons.mp ascending
    cases ys with
    | nil => simpa using same (key x)
    | cons y ys =>
      obtain ⟨least', further⟩ := List.pairwise_cons.mp ascending'
      -- Each first element is held by the other list, and so comes no earlier than its first.
      have held : x ∈ y :: ys := by
        have member : x ∈ (y :: ys).filter fun other => key other == key x := same (key x) ▸ by simp
        exact (List.mem_filter.mp member).1
      have held' : y ∈ x :: xs := by
        have member : y ∈ (x :: xs).filter fun other => key other == key y := same (key y) ▸ by simp
        exact (List.mem_filter.mp member).1
      have above : key y ≤ key x := by
        rcases List.mem_cons.mp held with rfl | later
        · exact le_rfl
        · exact least' x later
      have below : key x ≤ key y := by
        rcases List.mem_cons.mp held' with rfl | later
        · exact le_rfl
        · exact least y later
      have level : key y = key x := le_antisymm above below
      obtain rfl : x = y := by
        have heads := same (key x)
        simp only [List.filter_cons, level, beq_self_eq_true, if_true] at heads
        exact (List.cons.inj heads).1
      refine congrArg (x :: ·) (ih ascending further fun k => ?_)
      have rest := same k
      rw [List.filter_cons, List.filter_cons] at rest
      split at rest
      · exact (List.cons.inj rest).2
      · exact rest

/-- Leaving out repeats leaves out no element altogether. -/
theorem mem_dropRepeats [BEq α] [LawfulBEq α] {x : α} {xs : List α} :
    x ∈ dropRepeats xs ↔ x ∈ xs := by
  induction xs with
  | nil => rfl
  | cons y ys ih =>
    cases ys with
    | nil => rfl
    | cons z zs =>
      rw [dropRepeats]
      split <;> rename_i same
      · rw [ih, eq_of_beq same]
        simp
      · rw [List.mem_cons, ih, List.mem_cons (a := x) (b := y)]

theorem dropRepeats_sublist [BEq α] (xs : List α) : (dropRepeats xs).Sublist xs := by
  induction xs with
  | nil => exact .slnil
  | cons y ys ih =>
    cases ys with
    | nil => exact .refl _
    | cons z zs =>
      rw [dropRepeats]
      split
      · exact ih.cons _
      · exact ih.cons_cons _

/-- An ordered list without repeats holds nothing twice. -/
theorem nodup_dropRepeats [BEq α] [LawfulBEq α]
    (strict : ∀ first second, le first second = true → le second first = true → first = second)
    {xs : List α} (ordered : xs.Pairwise fun first second => le first second = true) :
    (dropRepeats xs).Nodup := by
  induction xs with
  | nil => exact .nil
  | cons y ys ih =>
    obtain ⟨least, rest⟩ := List.pairwise_cons.mp ordered
    cases ys with
    | nil => exact List.nodup_singleton y
    | cons z zs =>
      rw [dropRepeats]
      split <;> rename_i same
      · exact ih rest
      · refine List.nodup_cons.mpr ⟨fun member => ?_, ih rest⟩
        -- What comes again further on would stand on both sides of the next element.
        have further : y ∈ z :: zs := mem_dropRepeats.mp member
        rcases List.mem_cons.mp further with rfl | later
        · simp at same
        · have back := (List.pairwise_cons.mp rest).1 y later
          have next := strict y z (least z (by simp)) back
          exact same (by simp [next])

end Scaffold
