/-! Membership of a character in a table of code point ranges. -/

namespace Scaffold.Unicode

/-- Whether a character lies in one of the inclusive ranges. -/
def inRanges (ranges : List (Nat × Nat)) (c : Char) : Bool :=
  ranges.any fun (first, last) => first ≤ c.toNat && c.toNat ≤ last

/-- A character is in a table exactly when some range of the table holds it. -/
theorem inRanges_iff {ranges : List (Nat × Nat)} {c : Char} :
    inRanges ranges c = true ↔ ∃ range ∈ ranges, range.1 ≤ c.toNat ∧ c.toNat ≤ range.2 := by
  -- The boolean test of one range is the conjunction of its two bounds.
  simp [inRanges]

end Scaffold.Unicode
