/-! The least number at or above a bound that passes a test. -/

namespace Scaffold

/-- The least passing number among `count` numbers from `start` on. -/
def leastPassing (test : Nat → Bool) : (count start : Nat) → Option Nat
  | 0, _ => none
  | count + 1, start => if test start then some start else leastPassing test count (start + 1)

/-- The number found passes, lies in the range, and no earlier number of the range passes. -/
theorem leastPassing_eq_some {test : Nat → Bool} {count start found : Nat}
    (result : leastPassing test count start = some found) :
    test found = true ∧ start ≤ found ∧ found < start + count ∧
      ∀ earlier, start ≤ earlier → earlier < found → test earlier = false := by
  -- A failing first number only moves the start of the range.
  induction count generalizing start with
  | zero => cases result
  | succ count ih =>
    rw [leastPassing] at result
    split at result
    · rename_i passes
      cases result
      exact ⟨passes, Nat.le_refl _, by omega, fun earlier low high => by omega⟩
    · rename_i fails
      obtain ⟨passes, low, high, before⟩ := ih result
      refine ⟨passes, by omega, by omega, fun earlier lower upper => ?_⟩
      rcases Nat.lt_or_ge start earlier with later | same
      · exact before earlier later upper
      · have : earlier = start := by omega
        subst this
        simpa using fails

/-- Nothing is found exactly when every number of the range fails. -/
theorem leastPassing_eq_none_iff {test : Nat → Bool} {count start : Nat} :
    leastPassing test count start = none ↔
      ∀ number, start ≤ number → number < start + count → test number = false := by
  -- The first number of the range is tested apart from the others.
  induction count generalizing start with
  | zero =>
    simp only [leastPassing, true_iff]
    intro number low high
    omega
  | succ count ih =>
    rw [leastPassing]
    split
    · rename_i passes
      simp only [reduceCtorEq, false_iff]
      intro all
      simp [all start (Nat.le_refl _) (by omega)] at passes
    · rename_i fails
      rw [ih]
      constructor
      · intro rest number low high
        rcases Nat.lt_or_ge start number with later | same
        · exact rest number later (by omega)
        · have : number = start := by omega
          subst this
          simpa using fails
      · exact fun all number low high => all number (by omega) (by omega)

end Scaffold
