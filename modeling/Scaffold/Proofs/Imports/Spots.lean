import Mathlib.Data.List.Find
import Scaffold.Proofs.Imports.Headed
import Scaffold.Proofs.Imports.Runs

/-! The spots where new imports go among groups of imports that are there. -/

namespace Scaffold

open Go

/-- Groups in the order of their ranks, each with imports of its own in the order of their paths. -/
structure AreGroups (setting : Option String) (groups : List (ImportGroup × List Import)) :
    Prop where
  ascending : groups.Pairwise fun one other => one.1.rank < other.1.rank
  filled : ∀ group ∈ groups, group.2 ≠ []
  own : ∀ group ∈ groups, ∀ needed ∈ group.2, importGroup setting needed.path = group.1
  ordered : ∀ group ∈ groups, group.2.Pairwise fun one other => one.path < other.path

theorem AreGroups.sublist {setting : Option String}
    {groups others : List (ImportGroup × List Import)} (are : AreGroups setting groups)
    (inside : others.Sublist groups) : AreGroups setting others :=
  ⟨are.ascending.sublist inside, fun group member => are.filled group (inside.subset member),
    fun group member => are.own group (inside.subset member),
    fun group member => are.ordered group (inside.subset member)⟩

/-- What stands in the other groups is of groups behind the first one. -/
theorem AreGroups.above {setting : Option String} {group : ImportGroup × List Import}
    {groups : List (ImportGroup × List Import)} (are : AreGroups setting (group :: groups)) :
    ∀ needed ∈ groups.flatMap Prod.snd,
      group.1.rank < (importGroup setting needed.path).rank := by
  intro needed member
  obtain ⟨other, among, inside⟩ := List.mem_flatMap.mp member
  rw [are.own other (List.mem_cons_of_mem _ among) needed inside]
  exact (List.pairwise_cons.mp are.ascending).1 other among

/-- Where a new import goes among those of its group: before the first greater path. -/
def slotIn (offset : Nat) : List Import → Import → Nat
  | [], _ => offset
  | held :: rest, needed =>
    if needed.path < held.path then offset
    else slotIn (offset + byteLength (specLine held).toList) rest needed

/-- Where a new import goes among groups, and how it joins them. -/
def spotIn (setting : Option String) (offset : Nat) :
    List (ImportGroup × List Import) → Import → Nat × Placement
  | [], _ => (offset, .groupBehind)
  | group :: groups, needed =>
    if importGroup setting needed.path = group.1 then (slotIn offset group.2 needed, .within)
    else if (importGroup setting needed.path).rank < group.1.rank then (offset, .groupBefore)
    else if groups.isEmpty then (offset + byteLength (linesOf group.2).toList, .groupBehind)
    else spotIn setting (offset + byteLength (linesOf group.2).toList + 1) groups needed

variable {setting : Option String} {offset close : Nat} {needed : Import}

section Places

theorem lineOffsets_append (offset : Nat) (first second : List (Option Import)) :
    lineOffsets offset (first ++ second) = lineOffsets offset first ++
      lineOffsets (offset + byteLength (first.flatMap lineText)) second := by
  induction first generalizing offset with
  | nil => rfl
  | cons line first ih =>
    rw [List.flatMap_cons, byteLength_append, ← Nat.add_assoc]
    cases line with
    | none => exact ih (offset + 1)
    | some needed => exact congrArg ((offset, needed) :: ·) (ih _)

theorem placesIn_append (setting : Option String) (offset : Nat)
    (first second : List (Option Import)) :
    placesIn setting offset (first ++ second) = placesIn setting offset first ++
      placesIn setting (offset + byteLength (first.flatMap lineText)) second := by
  rw [placesIn, lineOffsets_append, List.map_append]
  rfl

/-- The places of a group are followed by those of the other groups, behind an empty line. -/
theorem placesIn_split (setting : Option String) (offset : Nat)
    (group : ImportGroup × List Import) (groups : List (ImportGroup × List Import)) : ∃ rest,
      placesIn setting offset (spacedLines ((group :: groups).map Prod.snd)) =
        placesIn setting offset (group.2.map some) ++ rest ∧
      (groups = [] ∧ rest = [] ∨ groups ≠ [] ∧ rest = placesIn setting
        (offset + byteLength (linesOf group.2).toList + 1)
          (spacedLines (groups.map Prod.snd))) := by
  cases groups with
  | nil => exact ⟨[], by simp [spacedLines], .inl ⟨rfl, rfl⟩⟩
  | cons next groups =>
    refine ⟨_, ?_, .inr ⟨List.cons_ne_nil _ _, rfl⟩⟩
    rw [List.map_cons, List.map_cons, spacedLines, placesIn_append, flatMap_lineText_map]
    rfl

theorem placesIn_cons (setting : Option String) (offset : Nat) (held : Import)
    (rest : List Import) : placesIn setting offset ((held :: rest).map some) =
      ⟨held.path, importGroup setting held.path, offset,
        offset + byteLength (specLine held).toList⟩ ::
          placesIn setting (offset + byteLength (specLine held).toList) (rest.map some) :=
  rfl

/-- Groups have places. -/
theorem placesIn_ne_nil {groups : List (ImportGroup × List Import)} (are : AreGroups setting groups)
    (some : groups ≠ []) (offset : Nat) :
    placesIn setting offset (spacedLines (groups.map Prod.snd)) ≠ [] := by
  obtain ⟨group, others, rfl⟩ := List.exists_cons_of_ne_nil some
  obtain ⟨first, held, lines⟩ := List.exists_cons_of_ne_nil (are.filled group (by simp))
  obtain ⟨rest, split, -⟩ := placesIn_split setting offset group others
  rw [split, lines, placesIn_cons]
  exact List.cons_ne_nil _ _

/-- What stands on a line of some groups is in the group that it stands in. -/
theorem group_of_mem_placesIn {groups : List (ImportGroup × List Import)}
    (are : AreGroups setting groups) {spec : PlacedSpec}
    (member : spec ∈ placesIn setting offset (spacedLines (groups.map Prod.snd))) :
    ∃ group ∈ groups, spec.group = group.1 := by
  obtain ⟨line, inside, rfl⟩ := List.mem_map.mp member
  have held := List.mem_map_of_mem (f := Prod.snd) inside
  rw [map_snd_lineOffsets, filterMap_spacedLines, List.mem_flatten] at held
  obtain ⟨_, listed, member⟩ := held
  obtain ⟨group, among, rfl⟩ := List.mem_map.mp listed
  exact ⟨group, among, are.own group among line.2 member⟩

/-- The lines of a group end where its text does. -/
theorem lineStop_of_getLast? {held : List Import} {last : PlacedSpec}
    (final : (placesIn setting offset (held.map some)).getLast? = some last) :
    last.lineStop = offset + byteLength (linesOf held).toList := by
  induction held generalizing offset with
  | nil => cases final
  | cons first rest ih =>
    rw [placesIn_cons] at final
    rw [linesOf_cons, String.toList_append, byteLength_append, ← Nat.add_assoc]
    cases rest with
    | nil =>
      cases final
      rfl
    | cons second rest =>
      rw [placesIn_cons, List.getLast?_cons_cons, ← placesIn_cons] at final
      exact ih final

/-- The first line with a greater path begins at the slot, if there is one. -/
theorem slotIn_eq (offset : Nat) (held : List Import) (needed : Import) :
    slotIn offset held needed =
      (((placesIn setting offset (held.map some)).find? fun spec =>
        needed.path < spec.path).map PlacedSpec.lineStart).getD
          (offset + byteLength (linesOf held).toList) := by
  induction held generalizing offset with
  | nil => rfl
  | cons first rest ih =>
    rw [slotIn, placesIn_cons, linesOf_cons, String.toList_append, byteLength_append,
      ← Nat.add_assoc]
    by_cases before : needed.path < first.path
    · rw [if_pos before, List.find?_cons_of_pos (by simpa using before)]
      rfl
    · rw [if_neg before, List.find?_cons_of_neg (by simpa using before), ih]

end Places

section Spot

variable {front rest : List PlacedSpec} {first last : PlacedSpec}

/-- Groups of different ranks are different. -/
theorem ne_of_rank_lt {one other : ImportGroup} (less : one.rank < other.rank) :
    one ≠ other := by
  rintro rfl
  exact Nat.lt_irrefl _ less

private theorem filter_eq_nil (others : ∀ spec ∈ front,
    spec.group ≠ importGroup setting needed.path) :
    (front.filter fun spec => spec.group == importGroup setting needed.path) = [] :=
  List.filter_eq_nil_iff.mpr fun spec member => by simpa using others spec member

/-- Inside its group an import stands before the first greater path, or behind the last line. -/
private theorem placeOf_within (own : ∀ spec ∈ front, spec.group = importGroup setting needed.path)
    (others : ∀ spec ∈ rest, spec.group ≠ importGroup setting needed.path)
    (final : front.getLast? = some last) :
    placeOf setting (front ++ rest) close needed =
      (((front.find? fun spec => needed.path < spec.path).map PlacedSpec.lineStart).getD
        last.lineStop, .within) := by
  have same : (front ++ rest).filter (fun spec =>
      spec.group == importGroup setting needed.path) = front := by
    rw [List.filter_append, filter_eq_nil others, List.append_nil, List.filter_eq_self]
    simpa using own
  have found : (front ++ rest).find? (fun spec => spec.group == importGroup setting needed.path &&
      decide (needed.path < spec.path)) = front.find? fun spec => needed.path < spec.path := by
    have none : rest.find? (fun spec => spec.group == importGroup setting needed.path &&
        decide (needed.path < spec.path)) = none :=
      List.find?_eq_none.mpr fun spec member => by simp [others spec member]
    rw [List.find?_append, none, Option.or_none]
    refine List.find?_congr fun spec member => ?_
    simp [own spec member]
  rw [placeOf, placeImport]
  simp only [same, final, found]
  cases front.find? fun spec => decide (needed.path < spec.path) <;> rfl

/-- In front of all groups, an import begins a group before the first line. -/
private theorem placeOf_before (greater : ∀ spec ∈ first :: rest,
    (importGroup setting needed.path).rank < spec.group.rank) :
    placeOf setting (first :: rest) close needed = (first.lineStart, .groupBefore) := by
  have none := filter_eq_nil fun spec member => (ne_of_rank_lt (greater spec member)).symm
  rw [placeOf, placeImport]
  simp only [none, List.getLast?_nil]
  rw [List.find?_cons_of_pos (by simpa using greater first (by simp))]

/-- Behind all groups, an import begins a group behind the last line. -/
private theorem placeOf_behind (less : ∀ spec ∈ front,
    spec.group.rank < (importGroup setting needed.path).rank) (final : front.getLast? = some last) :
    placeOf setting front close needed = (last.lineStop, .groupBehind) := by
  have none := filter_eq_nil fun spec member => ne_of_rank_lt (less spec member)
  have nothing : (front.find? fun spec =>
      (importGroup setting needed.path).rank < spec.group.rank) = Option.none :=
    List.find?_eq_none.mpr fun spec member => by simpa using (less spec member).le
  rw [placeOf, placeImport]
  simp only [none, List.getLast?_nil, nothing, final]
  rfl

/-- Groups in front of its own make no difference to an import, if others follow. -/
private theorem placeOf_append (less : ∀ spec ∈ front,
    spec.group.rank < (importGroup setting needed.path).rank) (more : rest ≠ []) :
    placeOf setting (front ++ rest) close needed = placeOf setting rest close needed := by
  have differs : ∀ spec ∈ front, spec.group ≠ importGroup setting needed.path :=
    fun spec member => ne_of_rank_lt (less spec member)
  have none := filter_eq_nil differs
  have inner : front.find? (fun spec => spec.group == importGroup setting needed.path &&
      decide (needed.path < spec.path)) = Option.none :=
    List.find?_eq_none.mpr fun spec member => by simp [differs spec member]
  have outer : (front.find? fun spec => (importGroup setting needed.path).rank < spec.group.rank) =
      Option.none :=
    List.find?_eq_none.mpr fun spec member => by simpa using (less spec member).le
  rw [placeOf, placeOf, placeImport, placeImport]
  simp only [List.filter_append, none, List.nil_append, List.find?_append, inner, outer,
    Option.none_or, List.getLast?_append_of_ne_nil _ more]

end Spot

/-- New imports are placed at their spots among the groups that are there. -/
theorem placeOf_placesIn {groups : List (ImportGroup × List Import)}
    (are : AreGroups setting groups) (some : groups ≠ []) (offset close : Nat) (needed : Import) :
    placeOf setting (placesIn setting offset (spacedLines (groups.map Prod.snd))) close needed =
      spotIn setting offset groups needed := by
  -- On the groups: an import of a later group passes the first one by.
  induction groups generalizing offset with
  | nil => exact absurd rfl some
  | cons group groups ih =>
    obtain ⟨ahead, behind⟩ := List.pairwise_cons.mp are.ascending
    have alone : AreGroups setting [group] := are.sublist (by simp)
    have others : AreGroups setting groups := are.sublist (List.sublist_cons_self _ _)
    obtain ⟨rest, split, further⟩ := placesIn_split setting offset group groups
    have own : ∀ spec ∈ placesIn setting offset (group.2.map Option.some),
        spec.group = group.1 := by
      intro spec member
      obtain ⟨_, among, same⟩ := group_of_mem_placesIn alone member
      rwa [List.mem_singleton.mp among] at same
    have later : ∀ spec ∈ rest, group.1.rank < spec.group.rank := by
      rcases further with ⟨-, rfl⟩ | ⟨-, rfl⟩
      · simp
      · intro spec member
        obtain ⟨other, among, same⟩ := group_of_mem_placesIn others member
        rw [same]
        exact ahead other among
    obtain ⟨first, held, lines⟩ := List.exists_cons_of_ne_nil (are.filled group (by simp))
    obtain ⟨last, final⟩ : ∃ last,
        (placesIn setting offset (group.2.map Option.some)).getLast? = Option.some last := by
      rw [lines, placesIn_cons]
      exact ⟨_, List.getLast?_eq_some_getLast (List.cons_ne_nil _ _)⟩
    rw [split, spotIn]
    split
    -- The import joins the first group.
    case isTrue same =>
      rw [placeOf_within (fun spec member => (own spec member).trans same.symm)
        (fun spec member => by rw [same]; exact (ne_of_rank_lt (later spec member)).symm) final,
        slotIn_eq, lineStop_of_getLast? final]
    case isFalse other =>
      split
      case isTrue less =>
        -- It begins a group in front of all that are there.
        have greater : ∀ spec ∈ placesIn setting offset (group.2.map Option.some) ++ rest,
            (importGroup setting needed.path).rank < spec.group.rank := by
          intro spec member
          rcases List.mem_append.mp member with inside | behind
          · rwa [own spec inside]
          · exact less.trans (later spec behind)
        rw [lines, List.map_cons, ← List.map_cons, placesIn_cons, List.cons_append] at greater ⊢
        exact placeOf_before greater
      case isFalse greater =>
        -- It passes the first group by, and goes behind it if there is no other one.
        have passed : group.1.rank < (importGroup setting needed.path).rank :=
          lt_of_le_of_ne (not_lt.mp greater) fun same => other (ImportGroup.rank_inj same).symm
        have less : ∀ spec ∈ placesIn setting offset (group.2.map Option.some),
            spec.group.rank < (importGroup setting needed.path).rank := fun spec member => by
          rwa [own spec member]
        rcases further with ⟨rfl, rfl⟩ | ⟨more, rfl⟩
        · rw [List.append_nil, placeOf_behind less final, lineStop_of_getLast? final]
          rfl
        · rw [placeOf_append less (placesIn_ne_nil others more _), if_neg (by simpa using more),
            ih others more]

end Scaffold
