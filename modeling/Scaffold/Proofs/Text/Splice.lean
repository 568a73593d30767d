import Mathlib.Algebra.BigOperators.Group.List.Basic
import Mathlib.Algebra.GroupWithZero.Nat
import Mathlib.Data.List.Chain
import Scaffold.Proofs.Text.Edit

/-! Edits applied together are the edits made one at a time, from the last to the first. -/

namespace Scaffold

/-- The text with one edit made, if its ends are cuts of the text. -/
def Edit.splice? (edit : Edit) (text : List Char) : Option (List Char) := do
  let (before, _) ← cutAt edit.start text
  let (_, after) ← cutAt edit.stop text
  return before ++ edit.text.toList ++ after

/-- An edit of a text: it ends where it starts or later, and both ends are cuts of the text. -/
structure Edit.Fits (edit : Edit) (text : List Char) : Prop where
  forward : edit.start ≤ edit.stop
  within : edit.stop ≤ byteLength text
  start : IsCut text edit.start
  stop : IsCut text edit.stop

/-- Each edit ends at or before the start of the next one. -/
def AreApart (edits : List Edit) : Prop :=
  edits.IsChain fun edit next => edit.stop ≤ next.start

/-- The number of bytes that edits take away. -/
def removedLength (edits : List Edit) : Nat :=
  (edits.map fun edit => edit.stop - edit.start).sum

/-- The number of bytes that edits bring in. -/
def addedLength (edits : List Edit) : Nat :=
  (edits.map fun edit => byteLength edit.text.toList).sum

/-- Edits that start together stand in the same order in two lists, which hold the same edits. -/
def KeepsTies (edits others : List Edit) : Prop :=
  ∀ start, others.filter (fun edit => edit.start == start) =
    edits.filter fun edit => edit.start == start

/-- Edits put in ascending order, those that start together in the order they were given. -/
structure IsSortedFrom (edits ordered : List Edit) : Prop where
  ascending : ordered.Pairwise fun first second => first.start ≤ second.start
  stable : KeepsTies edits ordered

/-- An edit behind some part of a text divides what follows that part. -/
theorem Edit.Fits.split {edit : Edit} {done rest : List Char} (fits : edit.Fits (done ++ rest))
    (behind : byteLength done ≤ edit.start) : ∃ kept cut after, rest = kept ++ (cut ++ after) ∧
      byteLength (done ++ kept) = edit.start ∧ byteLength (done ++ kept ++ cut) = edit.stop := by
  obtain ⟨before, following, same, start⟩ := fits.start
  obtain ⟨front, after, whole, stop⟩ := fits.stop
  have forward := fits.forward
  obtain ⟨kept, rfl, rfl⟩ := append_eq_append_of_le same (by omega)
  rw [← List.append_assoc] at whole
  obtain ⟨cut, rfl, rfl⟩ := append_eq_append_of_le whole (by omega)
  exact ⟨kept, cut, after, rfl, start, stop⟩

/-- What is between two cuts can be replaced. -/
theorem Edit.fits_of_split {edit : Edit} {done kept cut after : List Char}
    (start : byteLength (done ++ kept) = edit.start)
    (stop : byteLength (done ++ kept ++ cut) = edit.stop) :
    edit.Fits (done ++ (kept ++ (cut ++ after))) where
  forward := by
    rw [byteLength_append] at stop
    omega
  within := by
    simp only [byteLength_append] at stop ⊢
    omega
  start := ⟨done ++ kept, cut ++ after, by simp, start⟩
  stop := ⟨done ++ kept ++ cut, after, by simp, stop⟩

section Pass

variable {done rest out : List Char} {edits : List Edit}

/-- One edit of a pass: what is in front of it stays, and the others are made behind it. -/
theorem applyOrdered_split {edit : Edit} {kept cut after : List Char}
    (start : byteLength (done ++ kept) = edit.start)
    (stop : byteLength (done ++ kept ++ cut) = edit.stop) :
    applyOrdered (byteLength (done ++ (kept ++ (cut ++ after)))) (byteLength done)
        (kept ++ (cut ++ after)) (edit :: edits) =
      (applyOrdered (byteLength (done ++ kept ++ cut ++ after)) (byteLength (done ++ kept ++ cut))
        after edits).map (kept ++ edit.text.toList ++ ·) := by
  obtain ⟨first, last, new⟩ := edit
  dsimp only at start stop
  subst start stop
  have fits : byteLength done + byteLength kept + byteLength cut ≤
      byteLength (done ++ (kept ++ (cut ++ after))) := by
    simp only [byteLength_append]
    omega
  have made := @applyOrdered_cons _ _ edits kept cut after new fits
  rw [← byteLength_append, ← byteLength_append] at made
  rw [made]
  simp only [List.append_assoc]

/-- A pass that is made cuts the rest of the text at both ends of its first edit. -/
theorem split_of_applyOrdered {length : Nat} {edit : Edit}
    (applied : applyOrdered length (byteLength done) rest (edit :: edits) = .ok out) :
    ∃ kept cut after, rest = kept ++ (cut ++ after) ∧ byteLength (done ++ kept) = edit.start ∧
      byteLength (done ++ kept ++ cut) = edit.stop := by
  rw [applyOrdered] at applied
  -- Each check that fails ends the pass.
  split at applied
  · cases applied
  rename_i inside
  split at applied
  · cases applied
  split at applied
  · cases applied
  rename_i kept reached first
  split at applied
  · cases applied
  rename_i cut after second
  obtain ⟨rfl, before⟩ := cutAt_eq_some first
  obtain ⟨rfl, between⟩ := cutAt_eq_some second
  simp only [Bool.or_eq_true, decide_eq_true_eq, not_or, Nat.not_lt] at inside
  refine ⟨kept, cut, after, rfl, ?_, ?_⟩
  · rw [byteLength_append]
    omega
  · simp only [byteLength_append]
    omega

/-- An edit between two cuts replaces what stands between them. -/
theorem Edit.splice?_split {edit : Edit} {kept cut after : List Char}
    (start : byteLength kept = edit.start) (stop : byteLength (kept ++ cut) = edit.stop) :
    edit.splice? (kept ++ cut ++ after) = some (kept ++ edit.text.toList ++ after) := by
  rw [Edit.splice?, ← start, ← stop, cutAt_append, List.append_assoc kept cut, cutAt_append]
  rfl

/-- Whatever a pass makes of the rest of a text, making its edits from the last to the first
makes of the whole. -/
theorem splices_of_applyOrdered
    (applied : applyOrdered (byteLength (done ++ rest)) (byteLength done) rest edits = .ok out) :
    (∀ edit ∈ edits, edit.Fits (done ++ rest)) ∧
      (∀ edit ∈ edits.head?, byteLength done ≤ edit.start) ∧ AreApart edits ∧
      edits.foldrM Edit.splice? (done ++ rest) = some (done ++ out) ∧
      removedLength edits ≤ byteLength rest ∧
      byteLength out = byteLength rest - removedLength edits + addedLength edits := by
  -- On the edits: behind the first one, what was in front of its end counts as done.
  induction edits generalizing done rest out with
  | nil =>
    cases applied
    exact ⟨by simp, by simp, .nil, rfl, Nat.zero_le _, rfl⟩
  | cons edit edits ih =>
    obtain ⟨kept, cut, after, rfl, start, stop⟩ := split_of_applyOrdered applied
    rw [applyOrdered_split start stop] at applied
    cases made : applyOrdered (byteLength (done ++ kept ++ cut ++ after))
        (byteLength (done ++ kept ++ cut)) after edits with
    | error error =>
      rw [made] at applied
      cases applied
    | ok tail =>
      rw [made] at applied
      cases applied
      obtain ⟨fit, behind, apart, spliced, fewer, measured⟩ := ih made
      have whole : done ++ kept ++ cut ++ after = done ++ (kept ++ (cut ++ after)) := by simp
      rw [whole] at fit spliced
      refine ⟨List.forall_mem_cons.mpr ⟨Edit.fits_of_split start stop, fit⟩, ?_, ?_, ?_, ?_⟩
      · rw [byteLength_append] at start
        simp only [List.head?_cons, Option.mem_some_iff, forall_eq']
        omega
      · exact List.isChain_cons.mpr ⟨fun next first => stop ▸ behind next first, apart⟩
      · -- Further edits have left the text alone up to the end of this one.
        rw [List.foldrM_cons, spliced, Option.bind_eq_bind, Option.bind_some,
          Edit.splice?_split start stop]
        simp
      · simp only [removedLength, addedLength, List.map_cons, List.sum_cons, byteLength_append]
          at fewer measured start stop ⊢
        omega

/-- Edits that fit a text and stand apart can be made in one pass. -/
theorem exists_applyOrdered (fit : ∀ edit ∈ edits, edit.Fits (done ++ rest))
    (behind : ∀ edit ∈ edits.head?, byteLength done ≤ edit.start) (apart : AreApart edits) :
    ∃ out, applyOrdered (byteLength (done ++ rest)) (byteLength done) rest edits = .ok out := by
  induction edits generalizing done rest with
  | nil => exact ⟨rest, rfl⟩
  | cons edit edits ih =>
    obtain ⟨first, others⟩ := List.forall_mem_cons.mp fit
    obtain ⟨next, apart⟩ := List.isChain_cons.mp apart
    obtain ⟨kept, cut, after, rfl, start, stop⟩ := first.split (behind edit rfl)
    have whole : done ++ kept ++ cut ++ after = done ++ (kept ++ (cut ++ after)) := by simp
    rw [← whole] at others
    obtain ⟨tail, made⟩ := ih others (stop ▸ next) apart
    exact ⟨_, by rw [applyOrdered_split start stop, made]; rfl⟩

end Pass

section Ties

variable {edits others ordered : List Edit}

theorem orderEdits_isSortedFrom (edits : List Edit) : IsSortedFrom edits (orderEdits edits) where
  ascending := orderEdits_pairwise edits
  stable start := by
    -- The edits of one start are in order already.
    have together : (edits.filter fun edit => edit.start == start).Pairwise
        fun first second => decide (first.start ≤ second.start) = true := by
      refine List.pairwise_of_forall_mem_list fun first one second other => ?_
      have here := (List.mem_filter.mp one).2
      have there := (List.mem_filter.mp other).2
      rw [eq_of_beq here, eq_of_beq there]
      exact decide_eq_true (Nat.le_refl start)
    rw [orderEdits, filter_sortOrdered isOrder_start, sortOrdered_of_pairwise together]

/-- There is one way to put edits in order. -/
theorem IsSortedFrom.eq (sorted : IsSortedFrom edits ordered) : ordered = orderEdits edits := by
  have own := orderEdits_isSortedFrom edits
  exact eq_of_filter_key sorted.ascending own.ascending fun start =>
    (sorted.stable start).trans (own.stable start).symm

/-- The order of edits that do not start together does not matter. -/
theorem orderEdits_of_keepsTies (ties : KeepsTies edits others) :
    orderEdits others = orderEdits edits :=
  IsSortedFrom.eq ⟨orderEdits_pairwise others, fun start =>
    ((orderEdits_isSortedFrom others).stable start).trans (ties start)⟩

end Ties

/-- What edits make of a text is what a pass over it makes. -/
theorem applyEdits_eq_ok_iff {text made : String} {edits : List Edit} :
    applyEdits text edits = .ok made ↔ ∃ out,
      applyOrdered (byteLength text.toList) 0 text.toList (orderEdits edits) = .ok out ∧
        String.ofList out = made := by
  rw [applyEdits_eq]
  cases applyOrdered (byteLength text.toList) 0 text.toList (orderEdits edits) <;>
    simp [Except.map]

/--
Edits can be made together exactly if each of them fits the text and, put in order, they are apart.

What they make of it is what they make one at a time, from the last to the first, and is as long as
the text without what they take away and with what they bring in. Lists of the same edits make the
same of it if edits that start together stand in them in the same order.
-/
theorem applyEdits_splices (text : String) {edits ordered : List Edit}
    (sorted : IsSortedFrom edits ordered) :
    ((∃ made, applyEdits text edits = .ok made) ↔
      (∀ edit ∈ edits, edit.Fits text.toList) ∧ AreApart ordered) ∧
    (∀ made, applyEdits text edits = .ok made →
      ordered.foldrM Edit.splice? text.toList = some made.toList ∧
      removedLength edits ≤ byteLength text.toList ∧
      byteLength made.toList =
        byteLength text.toList - removedLength edits + addedLength edits) ∧
    ∀ others, KeepsTies edits others → applyEdits text others = applyEdits text edits := by
  obtain rfl := sorted.eq
  have perm : (orderEdits edits).Perm edits := sortOrdered_perm _ edits
  have removed : removedLength (orderEdits edits) = removedLength edits := (perm.map _).sum_eq
  have added : addedLength (orderEdits edits) = addedLength edits := (perm.map _).sum_eq
  refine ⟨⟨?_, ?_⟩, ?_, fun others ties => ?_⟩
  · rintro ⟨made, applied⟩
    obtain ⟨out, passed, -⟩ := applyEdits_eq_ok_iff.mp applied
    obtain ⟨fit, -, apart, -⟩ := @splices_of_applyOrdered [] _ _ _ passed
    exact ⟨fun edit member => fit edit (mem_orderEdits.mpr member), apart⟩
  · rintro ⟨fit, apart⟩
    obtain ⟨out, passed⟩ := @exists_applyOrdered [] _ _
      (fun edit member => fit edit (mem_orderEdits.mp member)) (by simp) apart
    exact ⟨_, applyEdits_eq_ok_iff.mpr ⟨out, passed, rfl⟩⟩
  · intro made applied
    obtain ⟨out, passed, rfl⟩ := applyEdits_eq_ok_iff.mp applied
    obtain ⟨-, -, -, spliced, fewer, measured⟩ := @splices_of_applyOrdered [] _ _ _ passed
    rw [removed] at fewer measured
    rw [added] at measured
    rw [String.toList_ofList]
    exact ⟨spliced, fewer, measured⟩
  · rw [applyEdits_eq, applyEdits_eq, orderEdits_of_keepsTies ties]

/-- An insertion at the start of a replacement is given in front of it, or not made at all. -/
example : applyEdits "abc" [⟨1, 2, "z"⟩, .insertion 1 "x"] = .error (.overlapping 1) := by
  decide

/-- Two insertions and a replacement at one offset, with another insertion given among them. -/
def tiedEdits : List Edit :=
  [.insertion 1 "x", .insertion 2 "!", .insertion 1 "y", ⟨1, 2, "z"⟩]

theorem applyEdits_splices_tied :
    IsSortedFrom tiedEdits [.insertion 1 "x", .insertion 1 "y", ⟨1, 2, "z"⟩, .insertion 2 "!"] ∧
      KeepsTies tiedEdits [.insertion 2 "!", .insertion 1 "x", .insertion 1 "y", ⟨1, 2, "z"⟩] ∧
      applyEdits "abc" tiedEdits = .ok "axyz!c" ∧
      applyEdits "abc" [.insertion 2 "!", .insertion 1 "x", .insertion 1 "y", ⟨1, 2, "z"⟩] =
        .ok "axyz!c" ∧
      [.insertion 1 "x", .insertion 1 "y", ⟨1, 2, "z"⟩, .insertion 2 "!"].foldrM Edit.splice?
        "abc".toList = some "axyz!c".toList := by
  have order : orderEdits tiedEdits =
      [.insertion 1 "x", .insertion 1 "y", ⟨1, 2, "z"⟩, .insertion 2 "!"] := by decide
  have sorted := order ▸ orderEdits_isSortedFrom tiedEdits
  have made : applyEdits "abc" tiedEdits = .ok "axyz!c" := by decide
  have ties : KeepsTies tiedEdits
      [.insertion 2 "!", .insertion 1 "x", .insertion 1 "y", ⟨1, 2, "z"⟩] := by
    -- The other list is sorted to the same one, so it agrees with it on each start.
    have other : orderEdits [.insertion 2 "!", .insertion 1 "x", .insertion 1 "y", ⟨1, 2, "z"⟩] =
        orderEdits tiedEdits := by decide
    intro start
    rw [← (orderEdits_isSortedFrom _).stable start, other,
      (orderEdits_isSortedFrom tiedEdits).stable start]
  obtain ⟨-, spliced, alike⟩ := applyEdits_splices "abc" sorted
  exact ⟨sorted, ties, made, (alike _ ties).trans made, (spliced _ made).1⟩

end Scaffold
