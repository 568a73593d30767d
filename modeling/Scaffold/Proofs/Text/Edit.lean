import Scaffold.Proofs.Order
import Scaffold.Text.Edit

/-! Edits applied to a text: insertions at places where it can be cut, one after the other. -/

namespace Scaffold

/-- An offset where a text can be cut. -/
def IsCut (text : List Char) (offset : Nat) : Prop :=
  ∃ before after, text = before ++ after ∧ byteLength before = offset

theorem isCut_append (before after : List Char) : IsCut (before ++ after) (byteLength before) :=
  ⟨before, after, rfl, rfl⟩

theorem IsCut.le {text : List Char} {offset : Nat} (cut : IsCut text offset) :
    offset ≤ byteLength text := by
  obtain ⟨before, after, rfl, rfl⟩ := cut
  rw [byteLength_append]
  omega

/-- Only the empty text has no bytes. -/
theorem eq_nil_of_byteLength {text : List Char} (none : byteLength text = 0) : text = [] := by
  cases text with
  | nil => rfl
  | cons c rest =>
    have := c.utf8Size_pos
    rw [byteLength_cons] at none
    omega

/-- A text divided in two ways is divided in three. -/
theorem append_eq_append_of_le {first rest second others : List Char}
    (same : first ++ rest = second ++ others) (below : byteLength first ≤ byteLength second) :
    ∃ between, second = first ++ between ∧ rest = between ++ others := by
  rcases List.append_eq_append_iff.mp same with ⟨between, rfl, rfl⟩ | ⟨between, rfl, rfl⟩
  · exact ⟨between, rfl, rfl⟩
  · rw [byteLength_append] at below
    obtain rfl := eq_nil_of_byteLength (by omega : byteLength between = 0)
    exact ⟨[], by simp, rfl⟩

/-- A text is divided in one way at an offset. -/
theorem append_inj_of_byteLength {first rest second others : List Char}
    (same : first ++ rest = second ++ others) (here : byteLength first = byteLength second) :
    first = second ∧ rest = others := by
  obtain ⟨between, rfl, rfl⟩ := append_eq_append_of_le same (Nat.le_of_eq here)
  rw [byteLength_append] at here
  obtain rfl := eq_nil_of_byteLength (by omega : byteLength between = 0)
  simp

/-- Behind a cut, later cuts are cuts of what is left. -/
theorem IsCut.behind {before after : List Char} {offset : Nat}
    (cut : IsCut (before ++ after) offset) (beyond : byteLength before ≤ offset) :
    IsCut after (offset - byteLength before) := by
  obtain ⟨first, rest, same, rfl⟩ := cut
  obtain ⟨between, rfl, rfl⟩ := append_eq_append_of_le same beyond
  rw [byteLength_append, Nat.add_sub_cancel_left]
  exact isCut_append between rest

/-- A cut behind a leading text keeps that text in its first part. -/
theorem cutAt_append_of_le {before : List Char} {offset : Nat} (beyond : byteLength before ≤ offset)
    (after : List Char) : cutAt offset (before ++ after) =
      (cutAt (offset - byteLength before) after).map fun parts => (before ++ parts.1, parts.2) := by
  induction before generalizing offset with
  | nil => simp
  | cons c before ih =>
    have positive := c.utf8Size_pos
    rw [byteLength_cons] at beyond
    rw [List.cons_append, cutAt, if_neg (by omega), if_pos (by omega), ih (by omega),
      Option.map_map, byteLength_cons, Nat.sub_sub]
    rfl

section Ordered

variable {length cursor : Nat} {later : List Edit}

/-- A replacement is made, and the later edits behind it. -/
theorem applyOrdered_cons (kept cut after : List Char) (new : String)
    (fits : cursor + byteLength kept + byteLength cut ≤ length) :
    applyOrdered length cursor (kept ++ (cut ++ after))
        (⟨cursor + byteLength kept, cursor + byteLength kept + byteLength cut, new⟩ :: later) =
      (applyOrdered length (cursor + byteLength kept + byteLength cut) after later).map
        (kept ++ new.toList ++ ·) := by
  have inside : ¬(cursor + byteLength kept + byteLength cut < cursor + byteLength kept ||
      length < cursor + byteLength kept + byteLength cut) = true := by
    simp only [Bool.or_eq_true, decide_eq_true_eq]
    omega
  rw [applyOrdered, if_neg inside, if_neg (by simp)]
  simp only [Nat.add_sub_cancel_left, cutAt_append]
  cases applyOrdered length (cursor + byteLength kept + byteLength cut) after later <;> rfl

/-- An insertion is made, and the later edits behind it. -/
theorem applyOrdered_insertion (kept after : List Char) (new : String)
    (fits : cursor + byteLength kept ≤ length) :
    applyOrdered length cursor (kept ++ after) (.insertion (cursor + byteLength kept) new :: later) =
      (applyOrdered length (cursor + byteLength kept) after later).map (kept ++ new.toList ++ ·) :=
  applyOrdered_cons kept [] after new (by simpa using fits)

/-- Text in front of all edits stays. -/
theorem applyOrdered_behind (kept after : List Char)
    (behind : ∀ edit ∈ later, cursor + byteLength kept ≤ edit.start) :
    applyOrdered length cursor (kept ++ after) later =
      (applyOrdered length (cursor + byteLength kept) after later).map (kept ++ ·) := by
  cases later with
  | nil => rfl
  | cons edit later =>
    have beyond := behind edit (by simp)
    have start : edit.start - cursor - byteLength kept =
        edit.start - (cursor + byteLength kept) := by omega
    rw [applyOrdered, applyOrdered]
    split
    · rfl
    rw [if_neg (by omega), if_neg (by omega), cutAt_append_of_le (by omega), start]
    cases cutAt (edit.start - (cursor + byteLength kept)) after with
    | none => rfl
    | some parts =>
      simp only [Option.map_some]
      cases cutAt (edit.stop - edit.start) parts.2 with
      | none => rfl
      | some behind =>
        simp only
        cases applyOrdered length edit.stop behind.2 later with
        | error error => rfl
        | ok tail =>
          simp only [Except.map, bind, Except.bind, pure, Except.pure, List.append_assoc]

/-- Insertions in ascending order are made one by one, the last one first. -/
theorem applyOrdered_insertion_first (kept after : List Char) (new : String) {out : List Char}
    (fits : cursor + byteLength kept ≤ length)
    (behind : ∀ edit ∈ later, cursor + byteLength kept ≤ edit.start)
    (others : applyOrdered length cursor (kept ++ after) later = .ok out) :
    ∃ tail, out = kept ++ tail ∧
      applyOrdered length cursor (kept ++ after)
        (.insertion (cursor + byteLength kept) new :: later) = .ok (kept ++ new.toList ++ tail) := by
  rw [applyOrdered_behind kept after behind] at others
  rw [applyOrdered_insertion kept after new fits]
  cases inner : applyOrdered length (cursor + byteLength kept) after later with
  | error error =>
    rw [inner] at others
    cases others
  | ok tail =>
    rw [inner] at others
    cases others
    exact ⟨tail, rfl, rfl⟩

/-- Edits that can be applied lie within the text. -/
theorem within_of_applyOrdered {rest out : List Char}
    (applied : applyOrdered length cursor rest later = .ok out) :
    ∀ edit ∈ later, edit.start ≤ edit.stop ∧ edit.stop ≤ length := by
  induction later generalizing cursor rest out with
  | nil => simp
  | cons edit later ih =>
    rw [applyOrdered] at applied
    split at applied
    · cases applied
    rename_i inside
    split at applied
    · cases applied
    split at applied
    · cases applied
    split at applied
    · cases applied
    rename_i kept after cut
    simp only [Bool.or_eq_true, decide_eq_true_eq, not_or, Nat.not_lt] at inside
    intro other member
    rcases List.mem_cons.mp member with rfl | behind
    · exact inside
    · cases inner : applyOrdered length edit.stop after later with
      | error error =>
        rw [inner] at applied
        cases applied
      | ok tail => exact ih inner other behind

/-- A text added behind everything comes behind what the other edits make of the text. -/
theorem applyOrdered_concat {rest out : List Char} (added : String)
    (whole : length = cursor + byteLength rest)
    (applied : applyOrdered length cursor rest later = .ok out) :
    applyOrdered length cursor rest (later ++ [.insertion length added]) =
      .ok (out ++ added.toList) := by
  induction later generalizing cursor rest out with
  | nil =>
    cases applied
    have only : applyOrdered length cursor (rest ++ []) [_] = _ :=
      applyOrdered_insertion rest [] added (Nat.le_of_eq whole.symm)
    rw [List.append_nil, ← whole] at only
    rw [List.nil_append, only]
    simp [applyOrdered, Except.map]
  | cons edit later ih =>
    rw [applyOrdered] at applied
    rw [List.cons_append, applyOrdered]
    split at applied
    · cases applied
    rename_i inside
    rw [if_neg inside]
    split at applied
    · cases applied
    rename_i ordered
    rw [if_neg ordered]
    split at applied
    · cases applied
    rename_i kept reached first
    split at applied
    · cases applied
    rename_i cut after second
    obtain ⟨rfl, before⟩ := cutAt_eq_some first
    obtain ⟨rfl, between⟩ := cutAt_eq_some second
    simp only [byteLength_append] at whole
    simp only [Bool.or_eq_true, decide_eq_true_eq, not_or, Nat.not_lt] at inside
    cases inner : applyOrdered length edit.stop after later with
    | error error =>
      rw [inner] at applied
      cases applied
    | ok tail =>
      rw [inner] at applied
      cases applied
      rw [ih (by omega) inner]
      simp [bind, Except.bind, pure, Except.pure]

/-- Insertions at cuts, in ascending order, can be made, and lose nothing. -/
theorem applyOrdered_insertions {rest : List Char} (whole : length = cursor + byteLength rest)
    (ascending : later.Pairwise fun first second => first.start ≤ second.start)
    (cuts : ∀ edit ∈ later, ∃ offset new, edit = .insertion offset new ∧ cursor ≤ offset ∧
      IsCut rest (offset - cursor)) :
    ∃ out, applyOrdered length cursor rest later = .ok out ∧ rest.Sublist out := by
  induction later generalizing cursor rest with
  | nil => exact ⟨rest, rfl, .refl _⟩
  | cons edit later ih =>
    obtain ⟨above, further⟩ := List.pairwise_cons.mp ascending
    obtain ⟨offset, new, rfl, beyond, kept, after, rfl, here⟩ := cuts edit (by simp)
    rw [byteLength_append] at whole
    obtain rfl : offset = cursor + byteLength kept := by omega
    have left : length = cursor + byteLength kept + byteLength after := by omega
    obtain ⟨tail, behind, kept'⟩ := ih left further (by
      intro other member
      obtain ⟨offset, text, rfl, ahead, cut⟩ := cuts other (List.mem_cons_of_mem _ member)
      have beyond : cursor + byteLength kept ≤ offset := above _ member
      refine ⟨offset, text, rfl, beyond, ?_⟩
      rw [← Nat.sub_sub]
      exact cut.behind (by omega))
    refine ⟨kept ++ new.toList ++ tail, ?_, ?_⟩
    · rw [applyOrdered_insertion kept after new (by omega), behind]
      rfl
    · rw [List.append_assoc]
      exact (List.Sublist.refl kept).append (kept'.trans (List.sublist_append_right _ _))

end Ordered

theorem isOrder_start :
    IsOrder fun first second : Edit => decide (first.start ≤ second.start) := by
  constructor
  · intro first second
    simp only [decide_eq_true_eq]
    omega
  · intro first second third before behind
    simp only [decide_eq_true_eq] at before behind ⊢
    omega

/-- Ordered edits ascend. -/
theorem orderEdits_pairwise (edits : List Edit) :
    (orderEdits edits).Pairwise fun first second => first.start ≤ second.start := by
  have ordered := sortOrdered_pairwise isOrder_start edits
  simp only [decide_eq_true_eq] at ordered
  exact ordered

theorem mem_orderEdits {edit : Edit} {edits : List Edit} : edit ∈ orderEdits edits ↔ edit ∈ edits :=
  mem_sortOrdered

theorem orderEdits_of_pairwise {edits : List Edit}
    (ascending : edits.Pairwise fun first second => first.start ≤ second.start) :
    orderEdits edits = edits :=
  sortOrdered_of_pairwise (by simpa using ascending)

theorem applyEdits_eq (text : String) (edits : List Edit) :
    applyEdits text edits =
      (applyOrdered (byteLength text.toList) 0 text.toList (orderEdits edits)).map String.ofList := by
  rw [applyEdits]
  cases applyOrdered (byteLength text.toList) 0 text.toList (orderEdits edits) <;> rfl

/-- A text added at the end of another is made by one more edit, behind any others. -/
theorem applyEdits_concat {text merged : String} {edits : List Edit} (added : String)
    (applied : applyEdits text edits = .ok merged) :
    applyEdits text (edits ++ [.insertion (byteLength text.toList) added]) =
      .ok (merged ++ added) := by
  rw [applyEdits_eq] at applied
  cases made : applyOrdered (byteLength text.toList) 0 text.toList (orderEdits edits) with
  | error error =>
    rw [made] at applied
    cases applied
  | ok out =>
    rw [made] at applied
    cases applied
    have behind : ∀ edit ∈ edits,
        decide (edit.start ≤ (Edit.insertion (byteLength text.toList) added).start) = true := by
      intro edit member
      have inside := within_of_applyOrdered made edit (mem_orderEdits.mpr member)
      exact decide_eq_true (Nat.le_trans inside.1 inside.2)
    have order : orderEdits (edits ++ [.insertion (byteLength text.toList) added]) =
        orderEdits edits ++ [.insertion (byteLength text.toList) added] := sortOrdered_concat behind
    rw [applyEdits_eq, order, applyOrdered_concat added (by simp) made]
    simp [Except.map, String.ofList_append]

/-- Insertions at cuts can be made, in whatever order they are given, and lose nothing. -/
theorem applyEdits_insertions {text : String} {edits : List Edit}
    (cuts : ∀ edit ∈ edits, ∃ offset new, edit = .insertion offset new ∧
      IsCut text.toList offset) :
    ∃ merged, applyEdits text edits = .ok merged ∧ text.toList.Sublist merged.toList := by
  have whole : byteLength text.toList = 0 + byteLength text.toList := (Nat.zero_add _).symm
  obtain ⟨out, made, kept⟩ := applyOrdered_insertions whole (orderEdits_pairwise edits) (by
    intro edit member
    obtain ⟨offset, new, same, cut⟩ := cuts edit (mem_orderEdits.mp member)
    exact ⟨offset, new, same, Nat.zero_le _, cut⟩)
  exact ⟨String.ofList out, by rw [applyEdits_eq, made]; rfl, by simpa using kept⟩

/-- One replacement between two cuts. -/
theorem applyEdits_replacement (before cut after : List Char) (new : String) :
    applyEdits (String.ofList (before ++ (cut ++ after)))
        [⟨byteLength before, byteLength before + byteLength cut, new⟩] =
      .ok (String.ofList (before ++ new.toList ++ after)) := by
  have fits : 0 + byteLength before + byteLength cut ≤ byteLength (before ++ (cut ++ after)) := by
    simp only [byteLength_append]
    omega
  have made : applyOrdered _ 0 _ [_] = _ := applyOrdered_cons before cut after new fits
  rw [Nat.zero_add] at made
  rw [applyEdits_eq, orderEdits_of_pairwise (List.pairwise_singleton _ _), String.toList_ofList,
    made]
  rfl

end Scaffold
