import Mathlib.Data.Finset.Card
import Mathlib.Data.Finset.Range
import Scaffold.Search

/-! Searches for a free number end: each thing in the way rules out at most one number. -/

namespace Scaffold

/-- Two numbers written with the same digits are the same number. -/
theorem toString_number_inj {first second : Nat}
    (same : toString first = toString second) : first = second := by
  -- Reading the digits gives the number back.
  have digits := congrArg String.toList same
  simp only [Nat.toString_eq_ofList_toDigits, String.toList_ofList] at digits
  rw [← @Nat.ofDigitChars_ten_toDigits first, digits, Nat.ofDigitChars_ten_toDigits]

/-- A number is written with digits only. -/
theorem isDigit_of_mem_toString {number : Nat} {c : Char}
    (member : c ∈ (toString number).toList) : c.isDigit = true := by
  rw [Nat.toString_eq_ofList_toDigits, String.toList_ofList] at member
  exact Nat.isDigit_of_mem_toDigits (by decide) (by decide) member

theorem toString_number_ne_empty (number : Nat) : toString number ≠ "" := by
  intro empty
  have none := congrArg String.toList empty
  rw [Nat.toString_eq_ofList_toDigits, String.toList_ofList] at none
  exact Nat.toDigits_ne_nil none

/-- Names made by numbering one base differ when their numbers do. -/
theorem numbered_inj {base : String} {first second : Nat}
    (same : base ++ toString first = base ++ toString second) : first = second :=
  toString_number_inj ((String.append_right_inj base).mp same)

/--
A search finds a number when it tries more numbers than there are obstacles.

Each failing number has to be ruled out by an obstacle, and no obstacle rules out two.
-/
theorem leastPassing_isSome {α : Type} [DecidableEq α] {test : Nat → Bool} {start : Nat}
    {obstacles : List α} (blocks : α → Nat → Prop)
    (blocked : ∀ number, test number = false → ∃ one ∈ obstacles, blocks one number)
    (single : ∀ one first second, blocks one first → blocks one second → first = second) :
    (leastPassing test (obstacles.length + 1) start).isSome := by
  -- Were every number blocked, the numbers tried would map injectively into the obstacles.
  by_contra none
  have failing : ∀ number, start ≤ number → number < start + (obstacles.length + 1) →
      test number = false := by
    apply leastPassing_eq_none_iff.mp
    simpa using none
  have owner : ∀ number ∈ Finset.range (obstacles.length + 1),
      ∃ one ∈ obstacles, blocks one (start + number) := by
    intro number member
    have below := Finset.mem_range.mp member
    exact blocked _ (failing (start + number) (by omega) (by omega))
  have inhabited : Nonempty α := ⟨(owner 0 (by simp)).choose⟩
  choose! chosen chosenMem chosenBlocks using owner
  have large : obstacles.toFinset.card < (Finset.range (obstacles.length + 1)).card := by
    have := obstacles.toFinset_card_le
    rw [Finset.card_range]
    omega
  obtain ⟨first, firstMem, second, secondMem, distinct, equal⟩ :=
    Finset.exists_ne_map_eq_of_card_lt_of_maps_to (f := chosen) large
      (fun number member => List.mem_toFinset.mpr (chosenMem number member))
  have clash := single (chosen first) _ _ (chosenBlocks first firstMem)
    (equal ▸ chosenBlocks second secondMem)
  omega

end Scaffold
