import Scaffold.Proofs.Imports.Apart
import Scaffold.Proofs.Imports.Slots

/-! New imports put in at their spots among groups give the groups of all imports. -/

namespace Scaffold

open Go

variable {setting : Option String} {offset : Nat} {group : ImportGroup × List Import}
  {groups : List (ImportGroup × List Import)} {new : List Import}

/-- Lines of imports end behind a quote. -/
theorem linesOf_closes {run : List Import} (some : run ≠ []) :
    ∃ front, (linesOf run).toList = front ++ ['"', '\n'] := by
  obtain ⟨others, last, rfl⟩ := (List.eq_nil_or_concat' run).resolve_left some
  obtain ⟨front, closes⟩ := last.spec_closes
  refine ⟨(linesOf others).toList ++ '\t' :: front, ?_⟩
  rw [linesOf_append, String.toList_append, linesOf_cons, String.toList_append, specLine_toList,
    closes]
  simp [linesOf]

/-- Lines of imports and groups in front of others are exchanged only if there are none. -/
theorem lines_comm_iff {run : List Import} {groups : List (List Import)}
    (filled : ∀ group ∈ groups, group ≠ []) :
    (linesOf run).toList ++ groups.flatMap (setOff .groupBefore) =
        groups.flatMap (setOff .groupBefore) ++ (linesOf run).toList ↔ run = [] ∨ groups = [] := by
  constructor
  · intro same
    -- The lines end behind a quote, and the groups with an empty line.
    by_contra neither
    rw [not_or] at neither
    obtain ⟨lines, closes⟩ := linesOf_closes neither.1
    obtain ⟨others, last, rfl⟩ := (List.eq_nil_or_concat' groups).resolve_left neither.2
    obtain ⟨front, quoted⟩ := linesOf_closes (filled last (by simp))
    have ends : (others ++ [last]).flatMap (setOff .groupBefore) =
        others.flatMap (setOff .groupBefore) ++ front ++ ['"'] ++ ['\n', '\n'] := by
      simp [setOff, quoted]
    generalize (others ++ [last]).flatMap (setOff .groupBefore) = text at same ends
    rw [closes, ← List.append_assoc text] at same
    nth_rewrite 1 [ends] at same
    rw [← List.append_assoc] at same
    exact absurd (List.append_inj' same rfl).2 (by decide)
  · rintro (rfl | rfl)
    · exact (List.append_nil _).symm
    · exact List.append_nil _

/-- Two texts put together in one order are followed by what they are in the other order. -/
theorem append_comm_iff {first second inner rest others : List Char} :
    first ++ second ++ (inner ++ rest) = second ++ (first ++ inner ++ others) ↔
      first ++ second = second ++ first ∧ rest = others := by
  rw [← List.append_assoc second, ← List.append_assoc second, List.append_assoc (second ++ first)]
  constructor
  · intro same
    obtain ⟨front, back⟩ := List.append_inj same (by simp [Nat.add_comm])
    exact ⟨front, List.append_cancel_left back⟩
  · rintro ⟨front, rfl⟩
    rw [front]

/-- The groups of all imports: the new ones below the first group, that group with its new imports,
and the others. -/
theorem groupedImports_cons (are : AreGroups setting (group :: groups)) (new : List Import) :
    groupedImports setting ((group :: groups).flatMap Prod.snd ++ new) =
      groupedImports setting (belowGroup setting group.1 new) ++
        (Import.sorted (group.2 ++ ofGroup setting group.1 new) ::
          groupedImports setting (groups.flatMap Prod.snd ++ aboveGroup setting group.1 new)) := by
  have own := are.own group (by simp)
  have held : (Import.sorted (group.2 ++ ofGroup setting group.1 new)).isEmpty = false := by
    have some := are.filled group (by simp)
    rw [isEmpty_sorted]
    simp [some]
  rw [List.flatMap_cons, groupedImports_split setting (group.2 ++ groups.flatMap Prod.snd ++ new)
      group.1, belowGroup_append own are.above, ofGroup_append own are.above,
    aboveGroup_append own are.above, filled, List.filter_cons_of_pos (by simp [held])]
  rfl

/-- In front of the first group the new lines and the new groups stand in the right order if they
keep apart there. -/
theorem front_comm_iff (are : AreGroups setting (group :: groups)) (offset : Nat)
    (new : List Import) :
    linesAt offset group.2 (ofGroup setting group.1 new) offset ++
        (groupedImports setting (belowGroup setting group.1 new)).flatMap (setOff .groupBefore) =
      (groupedImports setting (belowGroup setting group.1 new)).flatMap (setOff .groupBefore) ++
        linesAt offset group.2 (ofGroup setting group.1 new) offset ↔
      ∀ lower ∈ belowGroup setting group.1 new, ∀ leading ∈ ofGroup setting group.1 new,
        ¬∀ other ∈ group.2, leading.path < other.path := by
  have none : groupedImports setting (belowGroup setting group.1 new) = [] ↔
      belowGroup setting group.1 new = [] := by
    refine ⟨fun empty => ?_, fun empty => by rw [empty]; rfl⟩
    by_contra some
    exact groupedImports_ne_nil some empty
  rw [linesAt, lines_comm_iff fun _ member => ne_nil_of_mem_groupedImports member, none,
    List.filter_eq_nil_iff]
  simp only [beq_iff_eq, slotIn_eq_self (are.ordered group (by simp))]
  constructor
  · rintro (apart | empty) lower below leading own
    · exact apart leading own
    · rw [empty] at below
      cases below
  · intro apart
    rw [or_iff_not_imp_right]
    intro some leading own
    obtain ⟨lower, below⟩ := List.exists_mem_of_ne_nil _ some
    exact apart lower below leading own

/-- The lines of groups with new imports put in at their spots. -/
def woven (setting : Option String) (offset : Nat) (groups : List (ImportGroup × List Import))
    (new : List Import) : List Char :=
  placedAt setting (spotIn setting offset groups) new offset ++
    weave (placedAt setting (spotIn setting offset groups) new) offset
      (joined (groups.map Prod.snd))

/-- New imports at their spots give the groups of all imports if they keep apart, and only then. -/
theorem woven_eq_iff (are : AreGroups setting groups) (some : groups ≠ [])
    (ordered : new.Pairwise fun first second => first.mayPrecede second = true)
    (apart : ∀ needed ∈ new, ∀ other ∈ groups.flatMap Prod.snd, needed.path ≠ other.path) :
    woven setting offset groups new =
        joined (groupedImports setting (groups.flatMap Prod.snd ++ new)) ↔
      KeepApart setting (groups.flatMap Prod.snd) new := by
  -- On the groups: the first one takes the new imports of its own and of those below it.
  induction groups generalizing offset new with
  | nil => exact absurd rfl some
  | cons group groups ih =>
    have apart_own : ∀ needed ∈ ofGroup setting group.1 new, ∀ other ∈ group.2,
        needed.path ≠ other.path := fun needed member other inside =>
      apart needed (List.mem_of_mem_filter member) other (by simp [inside])
    have own : linesAt offset group.2 (ofGroup setting group.1 new) offset ++
        weave (linesAt offset group.2 (ofGroup setting group.1 new)) offset
          (linesOf group.2).toList =
        (linesOf (Import.sorted (group.2 ++ ofGroup setting group.1 new))).toList :=
      weave_lines (are.ordered group (by simp)) (ordered.filter _) apart_own
    have lines := linesOf_ne_nil (are.filled group (by simp))
    have positive : 0 < byteLength (linesOf group.2).toList :=
      Nat.pos_of_ne_zero fun empty => lines (eq_nil_of_byteLength empty)
    -- Into the lines of the group only its own new imports are put.
    have inner : ∀ place, offset < place →
        place ≤ offset + byteLength (linesOf group.2).toList →
        placedAt setting (spotIn setting offset (group :: groups)) new place =
          linesAt offset group.2 (ofGroup setting group.1 new) place ++
            if place = offset + byteLength (linesOf group.2).toList then
              (if groups = [] then (groupedImports setting (aboveGroup setting group.1
                new)).flatMap (setOff .groupBehind) else []) else [] := by
      intro place above inside
      rw [placedAt_head ordered inside, if_neg (by omega), List.nil_append]
      by_cases last : groups = [] <;> simp [last]
    rw [woven, placedAt_head ordered (Nat.le_add_right _ _), if_pos rfl, if_neg (by omega),
      List.append_nil, groupedImports_cons are new, joined_append _ (List.cons_ne_nil _ _),
      keepApart_cons are, ← front_comm_iff are offset]
    cases groups with
    | nil =>
      have alone : KeepApart setting [] (aboveGroup setting group.1 new) := by
        rintro lower - leading - ⟨-, ⟨other, none, -⟩, -⟩
        cases none
      rw [List.map_cons, List.map_nil, joined_single, weave_last lines inner, joined_cons, ← own,
        if_pos rfl, List.flatMap_nil, List.nil_append, append_comm_iff]
      exact and_congr_right fun _ => iff_of_true rfl alone
    | cons next more =>
      have some' : next :: more ≠ [] := List.cons_ne_nil _ _
      -- Behind the empty line it goes on with the new imports above the group.
      have later := @ih (offset + byteLength (linesOf group.2).toList + 1)
        (aboveGroup setting group.1 new) (are.sublist (List.sublist_cons_self _ _)) some'
        (ordered.filter _) (fun needed member other inside =>
          apart needed (List.mem_of_mem_filter member) other (by
            rw [List.flatMap_cons]
            exact List.mem_append_right _ inside))
      have rest : groupedImports setting ((next :: more).flatMap Prod.snd ++
          aboveGroup setting group.1 new) ≠ [] := by
        have held := are.filled next (by simp)
        exact groupedImports_ne_nil (by simp [held])
      have size : ('\n').utf8Size = 1 := rfl
      have others : (next :: more).map Prod.snd ≠ [] := List.cons_ne_nil _ _
      rw [List.map_cons, joined_cons_of_ne_nil _ others, weave_append,
        weave_last lines inner, if_neg some', List.append_nil, weave, size,
        placedAt_later some' (by omega),
        weave_congr _ fun place above => placedAt_later some' (by omega),
        joined_cons_of_ne_nil _ rest, ← own, append_comm_iff, List.cons_inj_right, ← later, woven]

end Scaffold
