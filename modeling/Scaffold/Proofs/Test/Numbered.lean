import Mathlib.Data.List.Nodup
import Scaffold.Proofs.Numbering
import Scaffold.Test.Naming

/-! Names for tests: each is the first one that is free, so tests added one after the other never
share a name. -/

namespace Scaffold

/-- A base name with a number behind it, as tests of one function are told apart. -/
def numberedTest (base : String) (number : Nat) : String :=
  base ++ "_" ++ toString number

/-- A name that some names leave free: the base if it is, and else the base with the least number
from two on. -/
inductive IsFirstFree (base : String) (existing : List String) : String → Prop
  | plain (free : base ∉ existing) : IsFirstFree base existing base
  | numbered {number : Nat} (taken : base ∈ existing) (low : 2 ≤ number)
      (free : numberedTest base number ∉ existing)
      (least : ∀ earlier, 2 ≤ earlier → earlier < number → numberedTest base earlier ∈ existing) :
      IsFirstFree base existing (numberedTest base number)

section Names

variable {base name : String} {existing : List String}

/-- Tests of one base differ in their names if they do in their numbers. -/
theorem numberedTest_inj {first second : Nat}
    (same : numberedTest base first = numberedTest base second) : first = second :=
  numbered_inj same

/-- A number behind a base makes another name of it. -/
theorem numberedTest_ne (base : String) (number : Nat) : numberedTest base number ≠ base := by
  intro same
  have longer := congrArg String.length same
  simp only [numberedTest, String.length_append] at longer
  have mark : "_".length = 1 := rfl
  omega

theorem IsFirstFree.notMem (first : IsFirstFree base existing name) : name ∉ existing := by
  cases first with
  | plain free => exact free
  | numbered taken low free least => exact free

/-- Only a base that is free is left as it is. -/
theorem IsFirstFree.eq_base_iff (first : IsFirstFree base existing name) :
    name = base ↔ base ∉ existing := by
  cases first with
  | plain free => exact iff_of_true rfl free
  | numbered taken low free least =>
    exact iff_of_false (numberedTest_ne base _) (not_not.mpr taken)

/-- Some number is free, however many names there are: each of them takes at most one. -/
theorem leastPassing_free (base : String) (existing : List String) :
    (leastPassing (fun number => !existing.contains (numberedTest base number))
      (existing.length + 1) 2).isSome := by
  refine leastPassing_isSome (fun one number => one = numberedTest base number) ?_ ?_
  · intro number taken
    exact ⟨numberedTest base number, by simpa using taken, rfl⟩
  · rintro one first second rfl same
    exact numberedTest_inj same

/-- The name chosen for a test is the first one that is free. -/
theorem isFirstFree_uniqueTestName (base : String) (existing : List String) :
    IsFirstFree base existing (uniqueTestName base existing) := by
  rw [uniqueTestName]
  split
  case isTrue taken =>
    -- The search has room for one more number than there are names, so it finds one.
    obtain ⟨number, found⟩ := Option.isSome_iff_exists.mp (leastPassing_free base existing)
    obtain ⟨free, low, -, before⟩ := leastPassing_eq_some found
    simp only [numberedTest] at found
    rw [found]
    refine .numbered (by simpa using taken) low (by simpa using free) ?_
    intro earlier above below
    simpa using before earlier above below
  case isFalse free => exact .plain (by simpa using free)

/-- The names of tests with those of further ones, each chosen among all that are there by then. -/
def withTestNames (existing bases : List String) : List String :=
  bases.foldl (fun names base => names ++ [uniqueTestName base names]) existing

/-- A name that is chosen among different ones differs from all of them. -/
theorem nodup_concat_uniqueTestName (distinct : existing.Nodup) (base : String) :
    (existing ++ [uniqueTestName base existing]).Nodup := by
  rw [← List.concat_eq_append]
  exact distinct.concat (isFirstFree_uniqueTestName base existing).notMem

/-- However many tests are added, whatever their bases, no two share a name. -/
theorem nodup_withTestNames (distinct : existing.Nodup) (bases : List String) :
    (withTestNames existing bases).Nodup := by
  -- On the bases: each name is chosen among the earlier ones, which are different already.
  induction bases generalizing existing with
  | nil => exact distinct
  | cons base bases ih => exact ih (nodup_concat_uniqueTestName distinct base)

end Names

/-- The name chosen for a test is free; it is the base exactly if that is free, and else the base
with the least free number from two on. So the names of tests that are added one after the other to
different ones stay different. -/
theorem uniqueTestName_chooses (base : String) (existing : List String) :
    uniqueTestName base existing ∉ existing ∧
    (uniqueTestName base existing = base ↔ base ∉ existing) ∧
    (base ∈ existing → ∃ number, 2 ≤ number ∧
      uniqueTestName base existing = base ++ "_" ++ toString number ∧
      base ++ "_" ++ toString number ∉ existing ∧
      ∀ earlier, 2 ≤ earlier → earlier < number →
        base ++ "_" ++ toString earlier ∈ existing) ∧
    (existing.Nodup → ∀ bases, (withTestNames existing bases).Nodup) := by
  have first := isFirstFree_uniqueTestName base existing
  refine ⟨first.notMem, first.eq_base_iff, fun taken => ?_, nodup_withTestNames⟩
  generalize uniqueTestName base existing = name at first
  cases first with
  | plain free => exact absurd taken free
  | numbered taken low free least => exact ⟨_, low, rfl, free, least⟩

/-- Bases that look like numbered names come between the names of another base. -/
theorem uniqueTestName_chooses_interleaved :
    "TestF" ∈ ["TestF", "TestF_3"] ∧ ["TestF", "TestF_3"].Nodup ∧
      (∃ number, 2 ≤ number ∧ uniqueTestName "TestF" ["TestF", "TestF_3"] =
        "TestF" ++ "_" ++ toString number) ∧
      (withTestNames ["TestF", "TestF_3"] ["TestF_2", "TestF", "TestF_2", "TestF_3"]).Nodup := by
  have taken : "TestF" ∈ ["TestF", "TestF_3"] := by decide
  have distinct : ["TestF", "TestF_3"].Nodup := by decide
  obtain ⟨-, -, numbered, run⟩ := uniqueTestName_chooses "TestF" ["TestF", "TestF_3"]
  obtain ⟨number, low, named, -⟩ := numbered taken
  exact ⟨taken, distinct, ⟨number, low, named⟩, run distinct _⟩

example : withTestNames ["TestF", "TestF_3"] ["TestF_2", "TestF", "TestF_2", "TestF_3"] =
    ["TestF", "TestF_3", "TestF_2", "TestF_4", "TestF_2_2", "TestF_3_2"] := by
  decide +kernel

end Scaffold
