import Scaffold.Proofs.Imports.Groups

/-! What new imports put in among the lines of a group, and around the first of some groups. -/

namespace Scaffold

open Go

variable {setting : Option String} {offset : Nat} {needed : Import}

section Slots

theorem le_slotIn (offset : Nat) (held : List Import) (needed : Import) :
    offset ≤ slotIn offset held needed := by
  induction held generalizing offset with
  | nil => exact le_rfl
  | cons first rest ih =>
    rw [slotIn]
    split
    · exact le_rfl
    · exact (Nat.le_add_right _ _).trans (ih _)

theorem slotIn_le (offset : Nat) (held : List Import) (needed : Import) :
    slotIn offset held needed ≤ offset + byteLength (linesOf held).toList := by
  induction held generalizing offset with
  | nil => exact le_rfl
  | cons first rest ih =>
    rw [slotIn, linesOf_cons, String.toList_append, byteLength_append, ← Nat.add_assoc]
    split
    · omega
    · exact ih _

/-- The lines of new imports that go to an offset among those of a group. -/
def linesAt (offset : Nat) (held new : List Import) (place : Nat) : List Char :=
  (linesOf (new.filter fun needed => slotIn offset held needed == place)).toList

theorem byteLength_specLine_pos (needed : Import) : 0 < byteLength (specLine needed).toList := by
  rw [specLine_toList]
  exact Nat.add_pos_left ('\t').utf8Size_pos _

theorem linesOf_ne_nil {held : List Import} (some : held ≠ []) : (linesOf held).toList ≠ [] := by
  obtain ⟨first, rest, rfl⟩ := List.exists_cons_of_ne_nil some
  rw [linesOf_cons, String.toList_append, specLine_toList]
  exact List.cons_ne_nil _ _

/-- Sorted imports with more of them are sorted anew. -/
theorem sorted_eq_of_perm {imports others : List Import} (perm : imports.Perm others)
    (ordered : others.Pairwise fun first second => first.mayPrecede second = true) :
    Import.sorted imports = others :=
  (sortOrdered_eq_of_perm Import.isOrder_mayPrecede Import.mayPrecede_antisymm perm).trans
    (sortOrdered_of_pairwise ordered)

theorem mayPrecede_of_path_lt {first second : Import} (before : first.path < second.path) :
    first.mayPrecede second = true := by
  rw [Import.mayPrecede, if_neg (by simpa using before.ne)]
  exact decide_eq_true before

section Cons

variable {first : Import} {rest new : List Import}

/-- The new imports that go before a line, and those that go behind it. -/
theorem sorted_cons_append (least : ∀ other ∈ rest, first.path < other.path)
    (ordered : new.Pairwise fun first second => first.mayPrecede second = true)
    (apart : ∀ needed ∈ new, needed.path ≠ first.path) :
    Import.sorted (first :: rest ++ new) =
      (new.filter fun needed => decide (needed.path < first.path)) ++ first ::
        Import.sorted (rest ++ new.filter fun needed => !decide (needed.path < first.path)) := by
  have behind : ∀ other ∈ rest ++ new.filter fun needed => !decide (needed.path < first.path),
      first.path < other.path := by
    intro other member
    rcases List.mem_append.mp member with held | added
    · exact least other held
    · obtain ⟨inside, not_before⟩ := List.mem_filter.mp added
      have above : first.path ≤ other.path := by
        simpa only [Bool.not_eq_true', decide_eq_false_iff_not, not_lt] using not_before
      exact lt_of_le_of_ne above (apart other inside).symm
  have sorted := sortOrdered_perm Import.mayPrecede
    (rest ++ new.filter fun needed => !decide (needed.path < first.path))
  refine sorted_eq_of_perm ?_ (List.pairwise_append.mpr ⟨ordered.filter _, ?_, ?_⟩)
  · have parts := List.filter_append_perm (fun needed : Import => needed.path < first.path) new
    -- The new imports are divided at the first one that is there.
    have divided := (parts.symm.append_left rest).trans (List.perm_append_comm_assoc _ _ _)
    exact (divided.cons first).trans
      (List.perm_middle.symm.trans ((sorted.symm.cons first).append_left _))
  · refine List.pairwise_cons.mpr ⟨fun other member => ?_, ?_⟩
    · exact mayPrecede_of_path_lt (behind other (sorted.mem_iff.mp member))
    · exact sortOrdered_pairwise Import.isOrder_mayPrecede _
  · intro needed member other follows
    have before : needed.path < first.path := of_decide_eq_true (List.mem_filter.mp member).2
    rcases List.mem_cons.mp follows with rfl | later
    · exact mayPrecede_of_path_lt before
    · exact mayPrecede_of_path_lt (before.trans (behind other (sorted.mem_iff.mp later)))

/-- Before the first line stand the new imports with lesser paths. -/
theorem linesAt_cons_self (offset : Nat) (first : Import) (rest new : List Import) :
    linesAt offset (first :: rest) new offset =
      (linesOf (new.filter fun needed => decide (needed.path < first.path))).toList := by
  have positive := byteLength_specLine_pos first
  rw [linesAt]
  congr 2
  refine List.filter_congr fun needed _ => ?_
  rw [slotIn]
  split
  case isTrue before => simp [before]
  case isFalse behind =>
    have above := le_slotIn (offset + byteLength (specLine first).toList) rest needed
    rw [decide_eq_false behind]
    exact beq_false_of_ne (by omega)

/-- Nothing is put into the first line. -/
theorem linesAt_cons_inside {place : Nat} (above : offset < place)
    (below : place < offset + byteLength (specLine first).toList) :
    linesAt offset (first :: rest) new place = [] := by
  have none : (new.filter fun needed => slotIn offset (first :: rest) needed == place) = [] := by
    refine List.filter_eq_nil_iff.mpr fun needed _ same => ?_
    rw [beq_iff_eq, slotIn] at same
    have further := le_slotIn (offset + byteLength (specLine first).toList) rest needed
    split at same <;> omega
  rw [linesAt, none]
  rfl

/-- Behind the first line stand the other new imports, at their slots among the other lines. -/
theorem linesAt_cons_behind {place : Nat}
    (above : offset + byteLength (specLine first).toList ≤ place) :
    linesAt offset (first :: rest) new place =
      linesAt (offset + byteLength (specLine first).toList) rest
        (new.filter fun needed => !decide (needed.path < first.path)) place := by
  have positive := byteLength_specLine_pos first
  rw [linesAt, linesAt, List.filter_filter]
  congr 2
  refine List.filter_congr fun needed _ => ?_
  rw [slotIn]
  split
  case isTrue before =>
    rw [decide_eq_true before, Bool.not_true, Bool.and_false]
    exact beq_false_of_ne (by omega)
  case isFalse behind => rw [decide_eq_false behind, Bool.not_false, Bool.and_true]

end Cons

/-- New imports at their slots give the lines of all imports in order. -/
theorem weave_lines {held new : List Import}
    (paths : held.Pairwise fun first second => first.path < second.path)
    (ordered : new.Pairwise fun first second => first.mayPrecede second = true)
    (apart : ∀ needed ∈ new, ∀ other ∈ held, needed.path ≠ other.path) :
    linesAt offset held new offset ++ weave (linesAt offset held new) offset (linesOf held).toList =
      (linesOf (Import.sorted (held ++ new))).toList := by
  -- On the lines: each one takes those new imports in front that have lesser paths.
  induction held generalizing offset new with
  | nil =>
    have all : (new.filter fun needed => slotIn offset [] needed == offset) = new := by
      simp [slotIn]
    rw [linesAt, all, List.nil_append, sorted_eq_of_perm (.refl _) ordered]
    exact List.append_nil _
  | cons first rest ih =>
    obtain ⟨least, later⟩ := List.pairwise_cons.mp paths
    have behind := @ih (offset + byteLength (specLine first).toList)
      (new.filter fun needed => !decide (needed.path < first.path)) later (ordered.filter _)
      fun needed member other held =>
        apart needed (List.mem_of_mem_filter member) other (by simp [held])
    have some : (specLine first).toList ≠ [] := by rw [specLine_toList]; simp
    rw [sorted_cons_append least ordered fun needed member => apart needed member first (by simp),
      linesOf_append, linesOf_cons, linesOf_cons, String.toList_append, String.toList_append,
      String.toList_append, ← behind, linesAt_cons_self, weave_append,
      weave_of_whole some fun place above below => linesAt_cons_inside above below,
      linesAt_cons_behind le_rfl, weave_congr _ fun place above => linesAt_cons_behind above.le]
    simp only [List.append_assoc]

/-- In front of all lines go the new imports with paths less than all others. -/
theorem slotIn_eq_self {held : List Import}
    (paths : held.Pairwise fun first second => first.path < second.path) (needed : Import) :
    slotIn offset held needed = offset ↔ ∀ other ∈ held, needed.path < other.path := by
  cases held with
  | nil => simp [slotIn]
  | cons first rest =>
    have positive := byteLength_specLine_pos first
    have further := le_slotIn (offset + byteLength (specLine first).toList) rest needed
    rw [slotIn]
    split
    case isTrue before =>
      have least := (List.pairwise_cons.mp paths).1
      simp only [true_iff, List.forall_mem_cons]
      exact ⟨before, fun other member => before.trans (least other member)⟩
    case isFalse behind =>
      refine iff_of_false (by omega) fun all => behind (all first (by simp))

end Slots

section Head

variable {group : ImportGroup × List Import} {groups : List (ImportGroup × List Import)}
  {new : List Import}

theorem spotIn_own (own : importGroup setting needed.path = group.1) :
    spotIn setting offset (group :: groups) needed = (slotIn offset group.2 needed, .within) :=
  if_pos own

theorem spotIn_below (below : (importGroup setting needed.path).rank < group.1.rank) :
    spotIn setting offset (group :: groups) needed = (offset, .groupBefore) := by
  rw [spotIn, if_neg (ne_of_rank_lt below), if_pos below]

theorem spotIn_above (above : group.1.rank < (importGroup setting needed.path).rank) :
    spotIn setting offset (group :: groups) needed =
      if groups.isEmpty then (offset + byteLength (linesOf group.2).toList, .groupBehind)
      else spotIn setting (offset + byteLength (linesOf group.2).toList + 1) groups needed := by
  rw [spotIn, if_neg (ne_of_rank_lt above).symm, if_neg (by omega)]

/-- An import is of a group that comes before another, of that group or of one behind it. -/
theorem group_cases (setting : Option String) (group : ImportGroup) (needed : Import) :
    (importGroup setting needed.path).rank < group.rank ∨ importGroup setting needed.path = group ∨
      group.rank < (importGroup setting needed.path).rank := by
  rcases lt_trichotomy (importGroup setting needed.path).rank group.rank with less | same | more
  · exact .inl less
  · exact .inr (.inl (ImportGroup.rank_inj same))
  · exact .inr (.inr more)

theorem le_spotIn (setting : Option String) (offset : Nat)
    (groups : List (ImportGroup × List Import)) (needed : Import) :
    offset ≤ (spotIn setting offset groups needed).1 := by
  induction groups generalizing offset with
  | nil => exact le_rfl
  | cons group groups ih =>
    rcases group_cases setting group.1 needed with below | own | above
    · rw [spotIn_below below]
    · rw [spotIn_own own]
      exact le_slotIn _ _ _
    · rw [spotIn_above above]
      split
      · exact Nat.le_add_right _ _
      · exact (by omega : offset ≤ _).trans (ih _)

/-- Among the lines of the first group go the new imports of that group. -/
theorem filter_within {place : Nat}
    (inside : place ≤ offset + byteLength (linesOf group.2).toList) :
    (new.filter fun needed => spotIn setting offset (group :: groups) needed == (place, .within)) =
      (ofGroup setting group.1 new).filter fun needed => slotIn offset group.2 needed == place := by
  rw [ofGroup, List.filter_filter]
  refine List.filter_congr fun needed _ => ?_
  rcases group_cases setting group.1 needed with below | own | above
  · rw [spotIn_below below, beq_false_of_ne (ne_of_rank_lt below), Bool.and_false]
    exact beq_false_of_ne (by simp)
  · rw [spotIn_own own, own, beq_self_eq_true, Bool.and_true, Bool.eq_iff_iff]
    simp
  -- An import above the group goes behind its lines.
  · rw [spotIn_above above, beq_false_of_ne (ne_of_rank_lt above).symm, Bool.and_false]
    split
    · exact beq_false_of_ne (by simp)
    · have further := le_spotIn setting (offset + byteLength (linesOf group.2).toList + 1) groups
        needed
      refine beq_false_of_ne fun same => ?_
      rw [same] at further
      omega

/-- In front of the first group go the new imports of groups below it. -/
theorem filter_before {place : Nat}
    (inside : place ≤ offset + byteLength (linesOf group.2).toList) :
    (new.filter fun needed =>
      spotIn setting offset (group :: groups) needed == (place, .groupBefore)) =
        if place = offset then belowGroup setting group.1 new else [] := by
  have keep : ∀ needed, (spotIn setting offset (group :: groups) needed == (place, .groupBefore)) =
      (decide (place = offset) &&
        decide ((importGroup setting needed.path).rank < group.1.rank)) := by
    intro needed
    rcases group_cases setting group.1 needed with below | own | above
    · rw [spotIn_below below, decide_eq_true below, Bool.and_true, Bool.eq_iff_iff, beq_iff_eq,
        decide_eq_true_iff, Prod.mk.injEq, and_iff_left rfl, eq_comm]
    · rw [spotIn_own own, own, decide_eq_false (Nat.lt_irrefl _), Bool.and_false]
      exact beq_false_of_ne (by simp)
    -- Behind the lines of the group no place is in front of it.
    · have other : ¬ (importGroup setting needed.path).rank < group.1.rank := by omega
      rw [spotIn_above above, decide_eq_false other, Bool.and_false]
      split
      · exact beq_false_of_ne (by simp)
      · have further := le_spotIn setting (offset + byteLength (linesOf group.2).toList + 1) groups
          needed
        refine beq_false_of_ne fun same => ?_
        rw [same] at further
        omega
  rw [List.filter_congr fun needed _ => keep needed]
  split
  case isTrue here => simp [here, belowGroup]
  case isFalse elsewhere => simp [elsewhere]

/-- Behind the last group go the new imports of groups above it. -/
theorem filter_behind {place : Nat}
    (inside : place ≤ offset + byteLength (linesOf group.2).toList) :
    (new.filter fun needed =>
      spotIn setting offset (group :: groups) needed == (place, .groupBehind)) =
        if groups = [] ∧ place = offset + byteLength (linesOf group.2).toList then
          aboveGroup setting group.1 new else [] := by
  have keep : ∀ needed, (spotIn setting offset (group :: groups) needed == (place, .groupBehind)) =
      (decide (groups = [] ∧ place = offset + byteLength (linesOf group.2).toList) &&
        decide (group.1.rank < (importGroup setting needed.path).rank)) := by
    intro needed
    rcases group_cases setting group.1 needed with below | own | above
    · rw [spotIn_below below, decide_eq_false (p := group.1.rank < _) (by omega), Bool.and_false]
      exact beq_false_of_ne (by simp)
    · rw [spotIn_own own, own, decide_eq_false (Nat.lt_irrefl _), Bool.and_false]
      exact beq_false_of_ne (by simp)
    · rw [spotIn_above above, decide_eq_true above, Bool.and_true, Bool.eq_iff_iff]
      split
      case isTrue none =>
        rw [beq_iff_eq, decide_eq_true_iff, Prod.mk.injEq, and_iff_left rfl, eq_comm,
          and_iff_right (List.isEmpty_iff.mp none)]
      -- With other groups there are, all places lie behind the empty line.
      case isFalse more =>
        have further := le_spotIn setting (offset + byteLength (linesOf group.2).toList + 1) groups
          needed
        have several : groups ≠ [] := by simpa using more
        simp only [several, false_and, decide_false, Bool.false_eq_true, iff_false, beq_iff_eq]
        intro same
        rw [same] at further
        omega
  rw [List.filter_congr fun needed _ => keep needed]
  split
  case isTrue here => simp [here, aboveGroup]
  case isFalse elsewhere => simp [elsewhere]

/-- Behind the first group and an empty line, the new imports of groups above it are placed as they
would be among the other groups. -/
theorem filter_later {place : Nat × Placement} (some : groups ≠ [])
    (beyond : offset + byteLength (linesOf group.2).toList < place.1) :
    (new.filter fun needed => spotIn setting offset (group :: groups) needed == place) =
      (aboveGroup setting group.1 new).filter fun needed =>
        spotIn setting (offset + byteLength (linesOf group.2).toList + 1) groups needed ==
          place := by
  rw [aboveGroup, List.filter_filter]
  refine List.filter_congr fun needed _ => ?_
  rcases group_cases setting group.1 needed with below | own | above
  · rw [spotIn_below below, decide_eq_false (p := group.1.rank < _) (by omega), Bool.and_false]
    exact beq_false_of_ne (by rintro rfl; simp at beyond)
  · rw [spotIn_own own, own, decide_eq_false (Nat.lt_irrefl _), Bool.and_false]
    have bound := slotIn_le offset group.2 needed
    exact beq_false_of_ne (by rintro rfl; simp only at beyond; omega)
  · rw [spotIn_above above, decide_eq_true above, Bool.and_true, if_neg (by simpa using some)]

end Head

section Placed

variable {group : ImportGroup × List Import} {groups : List (ImportGroup × List Import)}
  {new : List Import}

/-- What goes to an offset joins a group there, or begins groups before or behind. -/
theorem placedAt_eq (setting : Option String) (place : Import → Nat × Placement)
    (imports : List Import) (offset : Nat) : placedAt setting place imports offset =
      (groupedImports setting (imports.filter fun needed =>
        place needed == (offset, .within))).flatMap (setOff .within) ++
      ((groupedImports setting (imports.filter fun needed =>
        place needed == (offset, .groupBefore))).flatMap (setOff .groupBefore) ++
      (groupedImports setting (imports.filter fun needed =>
        place needed == (offset, .groupBehind))).flatMap (setOff .groupBehind)) := by
  simp only [placedAt, Placement.all, List.flatMap_cons, List.flatMap_nil, List.append_nil]

/-- Imports of one group, in order, are written as their lines. -/
theorem flatMap_within {kind : ImportGroup} {imports : List Import}
    (own : ∀ needed ∈ imports, importGroup setting needed.path = kind)
    (ordered : imports.Pairwise fun first second => first.mayPrecede second = true) :
    (groupedImports setting imports).flatMap (setOff .within) = (linesOf imports).toList := by
  have below : belowGroup setting kind imports = [] :=
    List.filter_eq_nil_iff.mpr fun needed member => by simp [own needed member]
  have above : aboveGroup setting kind imports = [] :=
    List.filter_eq_nil_iff.mpr fun needed member => by simp [own needed member]
  have all : ofGroup setting kind imports = imports :=
    List.filter_eq_self.mpr fun needed member => by simp [own needed member]
  rw [groupedImports_split setting imports kind, below, above, all,
    sorted_eq_of_perm (.refl _) ordered]
  cases imports with
  | nil => rfl
  | cons needed imports => exact List.append_nil _

/-- Around the first group stand its own new imports and those of the groups below it, and behind
it those of the groups above if there is no other group. -/
theorem placedAt_head (ordered : new.Pairwise fun first second => first.mayPrecede second = true)
    {place : Nat} (inside : place ≤ offset + byteLength (linesOf group.2).toList) :
    placedAt setting (spotIn setting offset (group :: groups)) new place =
      linesAt offset group.2 (ofGroup setting group.1 new) place ++
      ((if place = offset then
        (groupedImports setting (belowGroup setting group.1 new)).flatMap (setOff .groupBefore)
        else []) ++
      (if groups = [] ∧ place = offset + byteLength (linesOf group.2).toList then
        (groupedImports setting (aboveGroup setting group.1 new)).flatMap (setOff .groupBehind)
        else [])) := by
  have own : ∀ needed ∈ (ofGroup setting group.1 new).filter (fun needed =>
      slotIn offset group.2 needed == place), importGroup setting needed.path = group.1 :=
    fun needed member => eq_of_beq (List.mem_filter.mp (List.mem_of_mem_filter member)).2
  rw [placedAt_eq, filter_within inside, filter_before inside, filter_behind inside,
    flatMap_within own ((ordered.filter _).filter _), linesAt]
  congr 2
  · split <;> rfl
  · split <;> rfl

/-- Behind the first group the other groups take the new imports above it. -/
theorem placedAt_later (some : groups ≠ []) {place : Nat}
    (beyond : offset + byteLength (linesOf group.2).toList < place) :
    placedAt setting (spotIn setting offset (group :: groups)) new place =
      placedAt setting (spotIn setting (offset + byteLength (linesOf group.2).toList + 1) groups)
        (aboveGroup setting group.1 new) place := by
  rw [placedAt_eq, placedAt_eq, filter_later some beyond, filter_later some beyond,
    filter_later some beyond]

end Placed

end Scaffold
