import Scaffold.Proofs.Imports.Spots

/-! The groups that imports are written in, and how groups are joined by empty lines. -/

namespace Scaffold

open Go

variable {setting : Option String} {imports : List Import}

section Parts

/-- The imports of a group, in order. -/
def partOf (setting : Option String) (imports : List Import) (group : ImportGroup) : List Import :=
  Import.sorted (imports.filter fun needed => importGroup setting needed.path == group)

/-- The lists that hold something. -/
def filled (groups : List (List Import)) : List (List Import) :=
  groups.filter fun group => !group.isEmpty

theorem filled_append (first second : List (List Import)) :
    filled (first ++ second) = filled first ++ filled second :=
  List.filter_append _ _

/-- Sorted imports are some exactly if there are any to sort. -/
theorem isEmpty_sorted (imports : List Import) :
    (Import.sorted imports).isEmpty = imports.isEmpty :=
  (sortOrdered_perm Import.mayPrecede imports).isEmpty_eq

/-- A declaration has a part for each group that holds something. -/
theorem groupedImports_eq (setting : Option String) (imports : List Import) :
    groupedImports setting imports = filled (ImportGroup.all.map (partOf setting imports)) := by
  rw [groupedImports, filled, List.filter_map, List.filter_map, List.map_map]
  refine congrArg _ (List.filter_congr fun group _ => ?_)
  simp only [Function.comp_apply, partOf, isEmpty_sorted]

/-- What stands in a group is not changed by the order in which imports are given. -/
theorem partOf_perm {others : List Import} (perm : imports.Perm others) (group : ImportGroup) :
    partOf setting imports group = partOf setting others group :=
  sortOrdered_eq_of_perm Import.isOrder_mayPrecede Import.mayPrecede_antisymm (perm.filter _)

theorem groupedImports_perm {others : List Import} (perm : imports.Perm others) :
    groupedImports setting imports = groupedImports setting others := by
  rw [groupedImports_eq, groupedImports_eq, funext (partOf_perm perm)]

/-- Of the imports of some groups, the parts of those groups are left. -/
theorem groupedImports_filter (setting : Option String) (imports : List Import)
    (keep : ImportGroup → Bool) :
    groupedImports setting (imports.filter fun needed => keep (importGroup setting needed.path)) =
      filled ((ImportGroup.all.filter keep).map (partOf setting imports)) := by
  rw [groupedImports_eq]
  generalize ImportGroup.all = groups
  induction groups with
  | nil => rfl
  | cons group groups ih =>
    rw [List.map_cons, filled, List.filter_cons, ← filled, ih, partOf, List.filter_filter]
    cases kept : keep group with
    | true =>
      have same : (imports.filter fun needed => importGroup setting needed.path == group &&
          keep (importGroup setting needed.path)) =
            imports.filter fun needed => importGroup setting needed.path == group := by
        refine List.filter_congr fun needed _ => ?_
        by_cases own : importGroup setting needed.path = group
        · rw [own, kept, Bool.and_true]
        · rw [beq_false_of_ne own, Bool.false_and]
      rw [List.filter_cons_of_pos kept, List.map_cons, filled, filled, List.filter_cons, same]
      rfl
    | false =>
      -- A group that is not kept has an empty part.
      have none : (imports.filter fun needed => importGroup setting needed.path == group &&
          keep (importGroup setting needed.path)) = [] := by
        refine List.filter_eq_nil_iff.mpr fun needed _ both => ?_
        obtain ⟨own, other⟩ := Bool.and_eq_true_iff.mp both
        rw [eq_of_beq own, kept] at other
        cases other
      rw [List.filter_cons_of_neg (by simp [kept]), none]
      rfl

/-- All groups are those below a group, the group itself and those above it. -/
theorem ImportGroup.all_split (group : ImportGroup) : ImportGroup.all =
    (ImportGroup.all.filter fun other => decide (other.rank < group.rank)) ++
      group :: ImportGroup.all.filter fun other => decide (group.rank < other.rank) := by
  cases group <;> decide

/-- The imports of the groups below a group. -/
def belowGroup (setting : Option String) (group : ImportGroup) (imports : List Import) :
    List Import :=
  imports.filter fun needed => decide ((importGroup setting needed.path).rank < group.rank)

/-- The imports of a group. -/
def ofGroup (setting : Option String) (group : ImportGroup) (imports : List Import) : List Import :=
  imports.filter fun needed => importGroup setting needed.path == group

/-- The imports of the groups above a group. -/
def aboveGroup (setting : Option String) (group : ImportGroup) (imports : List Import) :
    List Import :=
  imports.filter fun needed => decide (group.rank < (importGroup setting needed.path).rank)

/-- The groups of imports are those below a group, its own part and those above it. -/
theorem groupedImports_split (setting : Option String) (imports : List Import)
    (group : ImportGroup) : groupedImports setting imports =
      groupedImports setting (belowGroup setting group imports) ++
        (filled [Import.sorted (ofGroup setting group imports)] ++
          groupedImports setting (aboveGroup setting group imports)) := by
  rw [belowGroup, aboveGroup,
    groupedImports_filter setting imports fun other => decide (other.rank < group.rank),
    groupedImports_filter setting imports fun other => decide (group.rank < other.rank),
    groupedImports_eq]
  conv_lhs => rw [ImportGroup.all_split group]
  rw [List.map_append, List.map_cons, filled_append, ← List.singleton_append, filled_append]
  rfl

section Split

variable {group : ImportGroup} {own rest : List Import}

/-- Below a group there is nothing of it and of the groups above it. -/
theorem belowGroup_append (same : ∀ needed ∈ own, importGroup setting needed.path = group)
    (above : ∀ needed ∈ rest, group.rank < (importGroup setting needed.path).rank)
    (new : List Import) :
    belowGroup setting group (own ++ rest ++ new) = belowGroup setting group new := by
  have none : (own ++ rest).filter (fun needed =>
      decide ((importGroup setting needed.path).rank < group.rank)) = [] := by
    refine List.filter_eq_nil_iff.mpr fun needed member => ?_
    rcases List.mem_append.mp member with first | second
    · simp [same needed first]
    · simpa using (above needed second).le
  rw [belowGroup, List.filter_append, none]
  rfl

/-- Of the imports of a group and those above it, the former are of that group. -/
theorem ofGroup_append (same : ∀ needed ∈ own, importGroup setting needed.path = group)
    (above : ∀ needed ∈ rest, group.rank < (importGroup setting needed.path).rank)
    (new : List Import) :
    ofGroup setting group (own ++ rest ++ new) = own ++ ofGroup setting group new := by
  have all : own.filter (fun needed => importGroup setting needed.path == group) = own :=
    List.filter_eq_self.mpr fun needed member => by simp [same needed member]
  have none : rest.filter (fun needed => importGroup setting needed.path == group) = [] :=
    List.filter_eq_nil_iff.mpr fun needed member => by
      simpa using (ne_of_rank_lt (above needed member)).symm
  rw [ofGroup, List.filter_append, List.filter_append, all, none, List.append_nil]
  rfl

/-- Of the imports of a group and those above it, the latter are above that group. -/
theorem aboveGroup_append (same : ∀ needed ∈ own, importGroup setting needed.path = group)
    (above : ∀ needed ∈ rest, group.rank < (importGroup setting needed.path).rank)
    (new : List Import) :
    aboveGroup setting group (own ++ rest ++ new) = rest ++ aboveGroup setting group new := by
  have none : own.filter (fun needed =>
      decide (group.rank < (importGroup setting needed.path).rank)) = [] :=
    List.filter_eq_nil_iff.mpr fun needed member => by simp [same needed member]
  have all : rest.filter (fun needed =>
      decide (group.rank < (importGroup setting needed.path).rank)) = rest :=
    List.filter_eq_self.mpr fun needed member => decide_eq_true (above needed member)
  rw [aboveGroup, List.filter_append, List.filter_append, none, all, List.nil_append]
  rfl

end Split

/-- No group is written without imports. -/
theorem ne_nil_of_mem_groupedImports {group : List Import}
    (member : group ∈ groupedImports setting imports) : group ≠ [] := by
  rw [groupedImports_eq] at member
  simpa using (List.mem_filter.mp member).2

/-- Where there are imports, there is a group. -/
theorem groupedImports_ne_nil (some : imports ≠ []) : groupedImports setting imports ≠ [] := by
  intro none
  have perm := flatten_groupedImports_perm setting imports
  rw [none] at perm
  exact some perm.symm.eq_nil

end Parts

section Joined

/-- Groups with an empty line between each two. -/
def joined (groups : List (List Import)) : List Char :=
  (spacedLines groups).flatMap lineText

theorem joined_single (group : List Import) : joined [group] = (linesOf group).toList :=
  flatMap_lineText_map group

/-- A group is followed by an empty line and the others. -/
theorem joined_cons_of_ne_nil (group : List Import) {groups : List (List Import)}
    (some : groups ≠ []) :
    joined (group :: groups) = (linesOf group).toList ++ '\n' :: joined groups := by
  obtain ⟨next, rest, rfl⟩ := List.exists_cons_of_ne_nil some
  rw [joined, spacedLines, List.flatMap_append, flatMap_lineText_map]
  rfl

/-- Groups in front of others are set off from them. -/
theorem joined_append (first : List (List Import)) {second : List (List Import)}
    (some : second ≠ []) :
    joined (first ++ second) = first.flatMap (setOff .groupBefore) ++ joined second := by
  induction first with
  | nil => rfl
  | cons group first ih =>
    rw [List.flatMap_cons, List.append_assoc, ← ih, List.cons_append,
      joined_cons_of_ne_nil _ (List.append_ne_nil_of_right_ne_nil first some), setOff,
      List.append_assoc]
    rfl

/-- Groups behind another one are set off from it. -/
theorem joined_cons (group : List Import) (groups : List (List Import)) :
    joined (group :: groups) = (linesOf group).toList ++ groups.flatMap (setOff .groupBehind) := by
  induction groups generalizing group with
  | nil => rw [joined_single, List.flatMap_nil, List.append_nil]
  | cons next groups ih =>
    rw [joined_cons_of_ne_nil _ (List.cons_ne_nil _ _), ih, List.flatMap_cons, setOff]
    rfl

end Joined

section Ordered

/-- The groups of a declaration with what stands in them. -/
def groupsOf (setting : Option String) (imports : List Import) : List (ImportGroup × List Import) :=
  (ImportGroup.all.map fun group => (group, partOf setting imports group)).filter
    fun group => !group.2.isEmpty

theorem map_snd_groupsOf (setting : Option String) (imports : List Import) :
    (groupsOf setting imports).map Prod.snd = groupedImports setting imports := by
  rw [groupsOf, groupedImports_eq, filled, List.filter_map, List.filter_map, List.map_map]
  rfl

theorem groupsOf_ne_nil (some : imports ≠ []) : groupsOf setting imports ≠ [] := by
  intro none
  have empty := map_snd_groupsOf setting imports
  rw [none] at empty
  exact groupedImports_ne_nil some empty.symm

theorem flatMap_groupsOf_perm (setting : Option String) (imports : List Import) :
    ((groupsOf setting imports).flatMap Prod.snd).Perm imports := by
  rw [List.flatMap_def, map_snd_groupsOf]
  exact flatten_groupedImports_perm setting imports

/-- Of imports with different paths, the one that may stand in front has the lesser path. -/
theorem path_lt_of_mayPrecede {first second : Import} (before : first.mayPrecede second = true)
    (differ : first.path ≠ second.path) : first.path < second.path := by
  rw [Import.mayPrecede, if_neg (by simpa using differ)] at before
  exact of_decide_eq_true before

theorem mem_partOf {group : ImportGroup} {needed : Import} :
    needed ∈ partOf setting imports group ↔
      needed ∈ imports ∧ importGroup setting needed.path = group := by
  rw [partOf, Import.sorted, mem_sortOrdered, List.mem_filter, beq_iff_eq]

/-- Imports with different paths are written in groups in the order of paths. -/
theorem areGroups_groupsOf (distinct : (imports.map Import.path).Nodup) :
    AreGroups setting (groupsOf setting imports) where
  ascending := by
    have ranks : ImportGroup.all.Pairwise fun one other => one.rank < other.rank := by decide
    exact List.Pairwise.filter _ (List.pairwise_map.mpr (ranks.imp id))
  filled group member := by simpa using (List.mem_filter.mp member).2
  own group member needed inside := by
    obtain ⟨kind, -, rfl⟩ := List.mem_map.mp (List.mem_filter.mp member).1
    exact (mem_partOf.mp inside).2
  ordered group member := by
    obtain ⟨kind, -, rfl⟩ := List.mem_map.mp (List.mem_filter.mp member).1
    have sorted := sortOrdered_pairwise Import.isOrder_mayPrecede
      (imports.filter fun needed => importGroup setting needed.path == kind)
    -- With different paths the order of imports is that of their paths.
    have paths : ((partOf setting imports kind).map Import.path).Nodup :=
      ((sortOrdered_perm _ _).map _).nodup_iff.mpr (distinct.sublist (List.filter_sublist.map _))
    exact (sorted.and (List.pairwise_map.mp paths)).imp fun both =>
      path_lt_of_mayPrecede both.1 both.2

end Ordered

end Scaffold
