import Scaffold.Proofs.Text.Edit

/-! What insertions make of a text, told by what they put in at each offset of it. -/

namespace Scaffold

/-- A text that begins at an offset, with what is put in behind each of its characters. -/
def weave (added : Nat → List Char) (offset : Nat) : List Char → List Char
  | [] => []
  | c :: rest => c :: (added (offset + c.utf8Size) ++ weave added (offset + c.utf8Size) rest)

/-- What edits put in at an offset, in their order. -/
def addedAt (edits : List Edit) (offset : Nat) : List Char :=
  (edits.filter fun edit => edit.start == offset).flatMap fun edit => edit.text.toList

section Weave

variable {added : Nat → List Char} {offset : Nat}

theorem weave_append (added : Nat → List Char) (offset : Nat) (first second : List Char) :
    weave added offset (first ++ second) =
      weave added offset first ++ weave added (offset + byteLength first) second := by
  induction first generalizing offset with
  | nil => rfl
  | cons c first ih =>
    simp only [List.cons_append, weave, ih, byteLength_cons, List.append_assoc, Nat.add_assoc]

/-- Only what is put in behind the first offset matters. -/
theorem weave_congr {others : Nat → List Char} (text : List Char)
    (same : ∀ place, offset < place → added place = others place) :
    weave added offset text = weave others offset text := by
  induction text generalizing offset with
  | nil => rfl
  | cons c text ih =>
    have positive := c.utf8Size_pos
    rw [weave, weave, same _ (by omega), ih fun place beyond => same place (by omega)]

/-- A text into which nothing is put stays as it is. -/
theorem weave_of_quiet (text : List Char) (quiet : ∀ place, offset < place → added place = []) :
    weave added offset text = text := by
  induction text generalizing offset with
  | nil => rfl
  | cons c text ih =>
    have positive := c.utf8Size_pos
    rw [weave, quiet _ (by omega), ih fun place beyond => quiet place (by omega), List.nil_append]

/-- Into a text that is left whole, something is put only behind it. -/
theorem weave_of_whole {text : List Char} (some : text ≠ [])
    (whole : ∀ place, offset < place → place < offset + byteLength text → added place = []) :
    weave added offset text = text ++ added (offset + byteLength text) := by
  induction text generalizing offset with
  | nil => exact absurd rfl some
  | cons c text ih =>
    have positive := c.utf8Size_pos
    rw [byteLength_cons] at whole ⊢
    cases text with
    | nil => simp [weave]
    | cons d text =>
      have further : 0 < byteLength (d :: text) := Nat.add_pos_left d.utf8Size_pos _
      rw [weave, whole _ (by omega) (by omega), List.nil_append,
        ih (List.cons_ne_nil d text) fun place beyond within => whole place (by omega) (by omega),
        Nat.add_assoc]
      rfl

/-- What is put in behind a text, beside what is put into it, comes last. -/
theorem weave_last {added others : Nat → List Char} {text extra : List Char} (some : text ≠ [])
    (same : ∀ place, offset < place → place ≤ offset + byteLength text →
      added place = others place ++ if place = offset + byteLength text then extra else []) :
    weave added offset text = weave others offset text ++ extra := by
  induction text generalizing offset with
  | nil => exact absurd rfl some
  | cons c text ih =>
    have positive := c.utf8Size_pos
    have first := same (offset + c.utf8Size) (by omega) (by rw [byteLength_cons]; omega)
    rw [weave, weave, first, byteLength_cons]
    cases text with
    | nil => simp [weave]
    | cons d text =>
      have further : 0 < byteLength (d :: text) := Nat.add_pos_left d.utf8Size_pos _
      rw [if_neg (by omega), List.append_nil, ih (List.cons_ne_nil d text)]
      · simp only [List.cons_append, List.append_assoc]
      · intro place above below
        rw [same place (by omega) (by rw [byteLength_cons]; omega), byteLength_cons c, Nat.add_assoc]

end Weave

section Added

variable {offset : Nat} {edits : List Edit}

theorem addedAt_cons_self (offset : Nat) (text : String) (edits : List Edit) :
    addedAt (.insertion offset text :: edits) offset = text.toList ++ addedAt edits offset := by
  simp [addedAt, Edit.insertion]

theorem addedAt_cons_of_ne {edit : Edit} (other : edit.start ≠ offset) :
    addedAt (edit :: edits) offset = addedAt edits offset := by
  simp [addedAt, other]

/-- Nothing is put in at an offset where no edit begins. -/
theorem addedAt_of_forall_ne (elsewhere : ∀ edit ∈ edits, edit.start ≠ offset) :
    addedAt edits offset = [] := by
  rw [addedAt, List.filter_eq_nil_iff.mpr fun edit member => by simpa using elsewhere edit member]
  rfl

/-- Insertions in ascending order put each text in at its offset. -/
theorem applyOrdered_weave {length cursor : Nat} {rest : List Char}
    (whole : length = cursor + byteLength rest)
    (ascending : edits.Pairwise fun first second => first.start ≤ second.start)
    (cuts : ∀ edit ∈ edits, ∃ offset new, edit = .insertion offset new ∧ cursor ≤ offset ∧
      IsCut rest (offset - cursor)) :
    applyOrdered length cursor rest edits =
      .ok (addedAt edits cursor ++ weave (addedAt edits) cursor rest) := by
  induction edits generalizing cursor rest with
  | nil => exact congrArg Except.ok (weave_of_quiet rest fun _ _ => rfl).symm
  | cons edit later ih =>
    obtain ⟨above, further⟩ := List.pairwise_cons.mp ascending
    obtain ⟨offset, new, rfl, beyond, kept, after, rfl, here⟩ := cuts edit (by simp)
    rw [byteLength_append] at whole
    obtain rfl : offset = cursor + byteLength kept := by omega
    have behind := @ih (cursor + byteLength kept) after (by omega) further (by
      intro other member
      obtain ⟨offset, text, rfl, ahead, cut⟩ := cuts other (List.mem_cons_of_mem _ member)
      have beyond : cursor + byteLength kept ≤ offset := above _ member
      refine ⟨offset, text, rfl, beyond, ?_⟩
      rw [← Nat.sub_sub]
      exact cut.behind (by omega))
    -- Behind the insertion only the later edits are left.
    have later_only : weave (addedAt (.insertion (cursor + byteLength kept) new :: later))
        (cursor + byteLength kept) after =
          weave (addedAt later) (cursor + byteLength kept) after :=
      weave_congr after fun place beyond => addedAt_cons_of_ne (by simp only [Edit.insertion]; omega)
    rw [applyOrdered_insertion kept after new (by omega), behind, weave_append, later_only]
    refine congrArg Except.ok ?_
    cases kept with
    | nil => simp only [byteLength_nil, Nat.add_zero, addedAt_cons_self, weave, List.nil_append,
        List.append_assoc]
    | cons c kept =>
      have positive := c.utf8Size_pos
      have before : ∀ place < cursor + byteLength (c :: kept),
          addedAt (.insertion (cursor + byteLength (c :: kept)) new :: later) place = [] := by
        intro place inside
        refine addedAt_of_forall_ne fun other member => ?_
        rcases List.mem_cons.mp member with rfl | member
        · simp only [Edit.insertion]
          omega
        · have := above other member
          simp only [Edit.insertion] at this
          omega
      rw [before cursor (by rw [byteLength_cons]; omega), List.nil_append,
        weave_of_whole (List.cons_ne_nil c kept) fun place _ within => before place within,
        addedAt_cons_self]
      simp only [List.append_assoc]

/-- Insertions at cuts in ascending order put each text in at its offset. -/
theorem applyEdits_weave {text : String}
    (ascending : edits.Pairwise fun first second => first.start ≤ second.start)
    (cuts : ∀ edit ∈ edits, ∃ offset new, edit = .insertion offset new ∧
      IsCut text.toList offset) :
    applyEdits text edits =
      .ok (String.ofList (addedAt edits 0 ++ weave (addedAt edits) 0 text.toList)) := by
  rw [applyEdits_eq, orderEdits_of_pairwise ascending,
    applyOrdered_weave (Nat.zero_add _).symm ascending]
  · rfl
  · intro edit member
    obtain ⟨offset, new, same, cut⟩ := cuts edit member
    exact ⟨offset, new, same, Nat.zero_le _, cut⟩

/-- Insertions that are all made in one part of a text leave what stands around that part. -/
theorem applyEdits_weave_inside {text : String} {lead middle tail : List Char}
    (split : text.toList = lead ++ (middle ++ tail))
    (ascending : edits.Pairwise fun first second => first.start ≤ second.start)
    (cuts : ∀ edit ∈ edits, ∃ offset new, edit = .insertion offset new ∧ IsCut text.toList offset)
    (inside : ∀ edit ∈ edits, byteLength lead ≤ edit.start ∧
      edit.start ≤ byteLength lead + byteLength middle) :
    applyEdits text edits = .ok (String.ofList (lead ++ (addedAt edits (byteLength lead) ++
      weave (addedAt edits) (byteLength lead) middle) ++ tail)) := by
  have before : ∀ place < byteLength lead, addedAt edits place = [] := fun place less =>
    addedAt_of_forall_ne fun edit member => by
      have := inside edit member
      omega
  have behind : ∀ place, byteLength lead + byteLength middle < place → addedAt edits place = [] :=
    fun place beyond => addedAt_of_forall_ne fun edit member => by
      have := inside edit member
      omega
  have front : addedAt edits 0 ++ weave (addedAt edits) 0 lead =
      lead ++ addedAt edits (byteLength lead) := by
    cases lead with
    | nil => exact List.append_nil _
    | cons c lead =>
      have positive : 0 < byteLength (c :: lead) := Nat.add_pos_left c.utf8Size_pos _
      rw [before 0 positive, List.nil_append, weave_of_whole (List.cons_ne_nil c lead)
        fun place _ within => before place (by omega), Nat.zero_add]
  rw [applyEdits_weave ascending cuts, split, weave_append, weave_append, Nat.zero_add,
    weave_of_quiet tail behind, ← List.append_assoc, front]
  simp only [List.append_assoc]

end Added

end Scaffold
