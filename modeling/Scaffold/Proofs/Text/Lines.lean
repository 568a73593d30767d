import Mathlib.Data.List.TakeWhile
import Scaffold.Imports.Merge
import Scaffold.Proofs.Text.Edit

/-! Where the lines of a text begin. -/

namespace Scaffold

/-- A cut at the start of the text or right behind a line break. -/
def BeginsLine (text : List Char) (offset : Nat) : Prop :=
  ∃ before after, text = before ++ after ∧ byteLength before = offset ∧
    (before = [] ∨ before.getLast? = some '\n')

theorem BeginsLine.isCut {text : List Char} {offset : Nat} (begins : BeginsLine text offset) :
    IsCut text offset := by
  obtain ⟨before, after, split, length, -⟩ := begins
  exact ⟨before, after, split, length⟩

/-- Line breaks are looked for in one part of a text after the other. -/
theorem startsBehindBreaks_append (offset : Nat) (first second : List Char) :
    startsBehindBreaks offset (first ++ second) =
      startsBehindBreaks offset first ++ startsBehindBreaks (offset + byteLength first) second := by
  induction first generalizing offset with
  | nil => rfl
  | cons c first ih =>
    simp only [List.cons_append, startsBehindBreaks, byteLength_cons, ih, Nat.add_assoc]
    split <;> rfl

/-- The offsets right behind the line breaks. -/
theorem mem_startsBehindBreaks {text : List Char} {offset start : Nat} :
    start ∈ startsBehindBreaks offset text ↔ ∃ before after, text = before ++ '\n' :: after ∧
      start = offset + byteLength (before ++ ['\n']) := by
  constructor
  · intro member
    induction text generalizing offset with
    | nil => cases member
    | cons c text ih =>
      have further : start ∈ startsBehindBreaks (offset + c.utf8Size) text →
          ∃ before after, c :: text = before ++ '\n' :: after ∧
            start = offset + byteLength (before ++ ['\n']) := by
        intro later
        obtain ⟨before, after, rfl, rfl⟩ := ih later
        exact ⟨c :: before, after, rfl, by simp only [List.cons_append, byteLength_cons]; omega⟩
      simp only [startsBehindBreaks] at member
      split at member
      · rename_i broken
        rcases List.mem_cons.mp member with here | later
        · exact ⟨[], text, by rw [eq_of_beq broken]; rfl, by rw [here, eq_of_beq broken]; rfl⟩
        · exact further later
      · exact further member
  · rintro ⟨before, after, rfl, rfl⟩
    rw [startsBehindBreaks_append, startsBehindBreaks]
    simp [Nat.add_assoc]

/-- The starts of the lines of a text. -/
theorem mem_starts {text : String} {offset : Nat} :
    offset ∈ (LineIndex.ofText text).starts ↔ BeginsLine text.toList offset := by
  rw [LineIndex.ofText, List.mem_cons, mem_startsBehindBreaks]
  constructor
  · rintro (rfl | ⟨before, after, split, rfl⟩)
    · exact ⟨[], text.toList, rfl, rfl, .inl rfl⟩
    · exact ⟨before ++ ['\n'], after, by simp [split], (Nat.zero_add _).symm, .inr (by simp)⟩
  · rintro ⟨before, after, split, rfl, rfl | broken⟩
    · exact .inl rfl
    · obtain ⟨front, rfl⟩ := List.getLast?_eq_some_iff.mp broken
      exact .inr ⟨front, after, by simp [split], (Nat.zero_add _).symm⟩

private theorem startsBehindBreaks_pairwise (offset : Nat) (text : List Char) :
    (startsBehindBreaks offset text).Pairwise (· < ·) ∧
      ∀ start ∈ startsBehindBreaks offset text, offset < start := by
  induction text generalizing offset with
  | nil => exact ⟨.nil, by simp [startsBehindBreaks]⟩
  | cons c text ih =>
    have positive := c.utf8Size_pos
    obtain ⟨ordered, behind⟩ := ih (offset + c.utf8Size)
    have further : ∀ start ∈ startsBehindBreaks (offset + c.utf8Size) text, offset < start :=
      fun start member => by have := behind start member; omega
    simp only [startsBehindBreaks]
    split
    · refine ⟨List.pairwise_cons.mpr ⟨behind, ordered⟩, ?_⟩
      intro start member
      rcases List.mem_cons.mp member with rfl | later
      · omega
      · exact further start later
    · exact ⟨ordered, further⟩

/-- Lines begin one behind the other. -/
theorem starts_pairwise (text : String) :
    (LineIndex.ofText text).starts.Pairwise (· < ·) := by
  obtain ⟨ordered, behind⟩ := startsBehindBreaks_pairwise 0 text.toList
  exact List.pairwise_cons.mpr ⟨behind, ordered⟩

/-- The line of an offset begins at the last start before it. -/
theorem lineStart_spec (text : String) (offset : Nat) :
    BeginsLine text.toList ((LineIndex.ofText text).lineStart offset) ∧
      (LineIndex.ofText text).lineStart offset ≤ offset ∧
      ∀ start, BeginsLine text.toList start → start ≤ offset →
        start ≤ (LineIndex.ofText text).lineStart offset := by
  have ordered := starts_pairwise text
  have first : 0 ∈ (LineIndex.ofText text).starts := List.mem_cons_self
  simp only [← mem_starts]
  rw [LineIndex.lineStart]
  generalize (LineIndex.ofText text).starts = starts at ordered first
  -- The starts taken are the ones at or before the offset, and the last of them is the greatest.
  have taken : ∀ start ∈ starts, start ≤ offset →
      start ∈ starts.takeWhile fun start => decide (start ≤ offset) := by
    intro start member before
    rw [← List.takeWhile_append_dropWhile (p := fun start => decide (start ≤ offset)) (l := starts)]
      at member ordered
    rcases List.mem_append.mp member with inside | behind
    · exact inside
    · cases rest : starts.dropWhile fun start => decide (start ≤ offset) with
      | nil =>
        rw [rest] at behind
        cases behind
      | cons next others =>
        have beyond : ¬next ≤ offset := by
          have := List.head?_dropWhile_not (fun start => decide (start ≤ offset)) starts
          rw [rest] at this
          simpa using this
        rw [rest] at behind ordered
        have ascending := (List.pairwise_append.mp ordered).2.1
        rcases List.mem_cons.mp behind with rfl | later
        · exact absurd before beyond
        · have := (List.pairwise_cons.mp ascending).1 start later
          omega
  have within : ∀ start ∈ starts.takeWhile fun start => decide (start ≤ offset),
      start ∈ starts ∧ start ≤ offset := by
    intro start member
    exact ⟨(List.takeWhile_sublist _).subset member, by simpa using List.mem_takeWhile_imp member⟩
  have ascending := ordered.sublist
    (List.takeWhile_sublist (fun start => decide (start ≤ offset)) (l := starts))
  have some := taken 0 first (Nat.zero_le _)
  generalize (starts.takeWhile fun start => decide (start ≤ offset)) = begun at *
  have last : begun.getLastD 0 ∈ begun ∧ ∀ start ∈ begun, start ≤ begun.getLastD 0 := by
    rcases List.eq_nil_or_concat begun with rfl | ⟨front, final, rfl⟩
    · cases some
    · simp only [List.concat_eq_append, List.getLastD_concat] at *
      refine ⟨by simp, ?_⟩
      intro start member
      rcases List.mem_append.mp member with before | here
      · exact Nat.le_of_lt ((List.pairwise_append.mp ascending).2.2 start before final (by simp))
      · exact Nat.le_of_eq (List.mem_singleton.mp here)
  exact ⟨(within _ last.1).1, (within _ last.1).2,
    fun start begins before => last.2 start (taken start begins before)⟩

/-- The line behind that of an offset begins at the first start behind it. -/
theorem lineStop_spec (text : String) (offset : Nat) :
    (BeginsLine text.toList ((LineIndex.ofText text).lineStop offset) ∧
      offset < (LineIndex.ofText text).lineStop offset ∧
      ∀ start, BeginsLine text.toList start → offset < start →
        (LineIndex.ofText text).lineStop offset ≤ start) ∨
    (LineIndex.ofText text).lineStop offset = byteLength text.toList ∧
      ∀ start, BeginsLine text.toList start → start ≤ offset := by
  have ordered := starts_pairwise text
  simp only [← mem_starts]
  rw [LineIndex.lineStop]
  cases found : (LineIndex.ofText text).starts.find? fun start => decide (offset < start) with
  | none =>
    refine .inr ⟨rfl, fun start begins => ?_⟩
    have := List.find?_eq_none.mp found start begins
    simpa using this
  | some next =>
    obtain ⟨beyond, before, after, split, skipped⟩ := List.find?_eq_some_iff_append.mp found
    rw [split] at ordered
    refine .inl ⟨?_, by simpa using beyond, ?_⟩
    · rw [split]
      simp
    · intro start begins behind
      rw [split] at begins
      rcases List.mem_append.mp begins with front | back
      · have := skipped start front
        simp only [Bool.not_eq_true', decide_eq_false_iff_not] at this
        exact absurd behind this
      · rcases List.mem_cons.mp back with rfl | later
        · exact Nat.le_refl _
        · have := (List.pairwise_append.mp ordered).2.1
          exact Nat.le_of_lt ((List.pairwise_cons.mp this).1 start later)

theorem isCut_lineStart (text : String) (offset : Nat) :
    IsCut text.toList ((LineIndex.ofText text).lineStart offset) :=
  (lineStart_spec text offset).1.isCut

theorem isCut_lineStop (text : String) (offset : Nat) :
    IsCut text.toList ((LineIndex.ofText text).lineStop offset) := by
  rcases lineStop_spec text offset with ⟨begins, -⟩ | ⟨final, -⟩
  · exact begins.isCut
  · rw [final]
    exact ⟨text.toList, [], by simp, rfl⟩

section Line

variable {text : String} {before line after : List Char}

/-- Inside a line no other line begins. -/
private theorem not_beginsLine_inside (unbroken : '\n' ∉ line)
    (split : text.toList = before ++ (line ++ '\n' :: after)) {start : Nat}
    (beyond : byteLength before < start) (within : start ≤ byteLength before + byteLength line) :
    ¬BeginsLine text.toList start := by
  rintro ⟨front, back, same, rfl, begins⟩
  obtain ⟨between, rfl, rest⟩ := append_eq_append_of_le (split.symm.trans same) beyond.le
  rw [byteLength_append] at beyond within
  obtain ⟨more, rfl, -⟩ := append_eq_append_of_le rest.symm (by omega)
  cases between with
  | nil =>
    rw [byteLength_nil] at beyond
    omega
  | cons c between =>
    -- The character in front of the start is one of the line.
    rcases begins with none | broken
    · simp at none
    · rw [List.getLast?_append_of_ne_nil _ (List.cons_ne_nil c between)] at broken
      exact unbroken (List.mem_append_left more (List.mem_of_getLast? broken))

/-- The lines that offsets of a line lie on begin where it begins and end where it ends. -/
theorem lineStart_eq (begins : before = [] ∨ before.getLast? = some '\n') (unbroken : '\n' ∉ line)
    (split : text.toList = before ++ (line ++ '\n' :: after)) {offset : Nat}
    (beyond : byteLength before ≤ offset) (within : offset ≤ byteLength before + byteLength line) :
    (LineIndex.ofText text).lineStart offset = byteLength before ∧
      (LineIndex.ofText text).lineStop offset = byteLength before + byteLength line + 1 := by
  have here : BeginsLine text.toList (byteLength before) := ⟨_, _, split, rfl, begins⟩
  have next : BeginsLine text.toList (byteLength before + byteLength line + 1) := by
    refine ⟨before ++ (line ++ ['\n']), after, by simp [split], ?_, .inr (by simp)⟩
    rw [byteLength_append, byteLength_append, Nat.add_assoc]
    rfl
  constructor
  · obtain ⟨start, before', last⟩ := lineStart_spec text offset
    have least := last _ here beyond
    by_contra other
    exact not_beginsLine_inside unbroken split (by omega) (by omega) start
  · rcases lineStop_spec text offset with ⟨stop, behind, first⟩ | ⟨-, none⟩
    · have most := first _ next (by omega)
      by_contra other
      exact not_beginsLine_inside unbroken split (by omega) (by omega) stop
    · have := none _ next
      omega

end Line

end Scaffold
