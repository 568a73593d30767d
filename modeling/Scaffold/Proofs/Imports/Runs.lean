import Mathlib.Algebra.Order.BigOperators.Group.List
import Scaffold.Proofs.Imports.Merge
import Scaffold.Proofs.Text.Weave

/-! What the edits of a declaration put in at each offset: the lines placed there, in groups. -/

namespace Scaffold

open Go

section Runs

variable {α κ : Type} [DecidableEq κ] {key : α → κ} {same : α → α → Bool}

/-- Elements with one key are one run if something with another key follows, or nothing. -/
private theorem gatherRuns_run (keyed : ∀ x y, same x y = decide (key x = key y)) {x : α}
    {run rest : List α} (alike : ∀ y ∈ run, key y = key x)
    (apart : ∀ y, rest.head? = some y → key y ≠ key x) :
    gatherRuns same (x :: (run ++ rest)) = (x :: run) :: gatherRuns same rest := by
  induction run generalizing x with
  | nil =>
    -- What follows has another key, so it begins a run of its own.
    have flat := flatten_gatherRuns same rest
    rw [List.nil_append, gatherRuns]
    split
    · rename_i y others runs gathered
      have first : rest.head? = some y := by
        rw [← flat, gathered]
        rfl
      rw [if_neg (by simpa [keyed] using (apart y first).symm), gathered]
    · rfl
  | cons z run ih =>
    have joined : key z = key x := alike z (by simp)
    have others := ih (x := z) (fun y member => (alike y (by simp [member])).trans joined.symm)
      fun y first => joined ▸ apart y first
    rw [List.cons_append, gatherRuns, others]
    exact if_pos (by simp [keyed, joined])

/-- Elements that stand together by their keys are gathered into one run for each key. -/
theorem gatherRuns_flatMap (keyed : ∀ x y, same x y = decide (key x = key y)) {keys : List κ}
    (distinct : keys.Nodup) {part : κ → List α} (parts : ∀ k ∈ keys, ∀ x ∈ part k, key x = k) :
    gatherRuns same (keys.flatMap part) = (keys.map part).filter fun run => !run.isEmpty := by
  induction keys with
  | nil => rfl
  | cons k keys ih =>
    obtain ⟨new, distinct⟩ := List.nodup_cons.mp distinct
    have others := ih distinct fun k member => parts k (List.mem_cons_of_mem _ member)
    have here := parts k (by simp)
    rw [List.flatMap_cons, List.map_cons]
    -- An empty part leaves no run, any other one is a run by itself.
    cases run : part k with
    | nil =>
      rw [List.nil_append, others]
      rfl
    | cons x run =>
      rw [run] at here
      have first := here x (by simp)
      have apart : ∀ y, (keys.flatMap part).head? = some y → key y ≠ key x := by
        intro y head
        obtain ⟨other, inside, member⟩ := List.mem_flatMap.mp (List.mem_of_head? head)
        rw [parts other (List.mem_cons_of_mem _ inside) y member, first]
        rintro rfl
        exact new inside
      rw [List.cons_append, gatherRuns_run keyed (fun y member =>
        (here y (List.mem_cons_of_mem _ member)).trans first.symm) apart, others]
      rfl

end Runs

/-- All placements in the order of their ranks. -/
def Placement.all : List Placement :=
  [.within, .groupBefore, .groupBehind]

theorem Placement.mem_all (placement : Placement) : placement ∈ Placement.all := by
  cases placement <;> decide

theorem ImportGroup.mem_all (group : ImportGroup) : group ∈ ImportGroup.all := by
  cases group <;> decide

/-- Groups are told apart by their places. -/
theorem ImportGroup.rank_inj {one other : ImportGroup} (same : one.rank = other.rank) :
    one = other := by
  cases one <;> cases other <;> first | rfl | cases same

/-- The lines of a group, set off from what it is placed before or behind. -/
def setOff (placement : Placement) (group : List Import) : List Char :=
  match placement with
  | .within => (linesOf group).toList
  | .groupBefore => (linesOf group).toList ++ ['\n']
  | .groupBehind => '\n' :: (linesOf group).toList

/-- What is put in at an offset if imports go to some places. -/
def placedAt (setting : Option String) (place : Import → Nat × Placement) (imports : List Import)
    (offset : Nat) : List Char :=
  Placement.all.flatMap fun placement =>
    (groupedImports setting (imports.filter fun needed =>
      place needed == (offset, placement))).flatMap (setOff placement)

/-- The offset and the placement of a new import. -/
def placeOf (setting : Option String) (specs : List PlacedSpec) (close : Nat) (needed : Import) :
    Nat × Placement :=
  ((placeImport setting specs close needed).offset,
    (placeImport setting specs close needed).placement)

/-- Imports in order that are divided by their groups are in the groups of a declaration. -/
theorem groupedImports_of_ordered (setting : Option String) {imports : List Import}
    (ordered : imports.Pairwise fun first second => first.mayPrecede second = true) :
    groupedImports setting imports =
      (ImportGroup.all.map fun group => imports.filter fun needed =>
        importGroup setting needed.path == group).filter fun group => !group.isEmpty := by
  rw [groupedImports]
  refine (List.map_congr_left fun group member => ?_).trans (List.map_id _)
  obtain ⟨kind, -, rfl⟩ := List.mem_map.mp (List.mem_of_mem_filter member)
  exact sortOrdered_of_pairwise (ordered.filter _)

section Placed

variable {setting : Option String} {specs : List PlacedSpec} {close : Nat} {imports : List Import}

theorem group_placeImport (setting : Option String) (specs : List PlacedSpec) (close : Nat)
    (needed : Import) :
    (placeImport setting specs close needed).group = importGroup setting needed.path := by
  rw [placeImport]
  split
  · rfl
  · split <;> rfl

theorem groupText_eq_setOff (setting : Option String) (specs : List PlacedSpec) (close : Nat)
    (placement : Placement) (group : List Import) :
    (groupText placement (group.map (placeImport setting specs close))).toList =
      setOff placement group := by
  have lines : String.join ((group.map (placeImport setting specs close)).map PlacedLine.line) =
      linesOf group := by
    rw [List.map_map, linesOf]
    congr 1
    exact List.map_congr_left fun needed _ => line_placeImport setting specs close needed
  cases placement <;> simp only [groupText, lines, setOff] <;> simp

/-- The imports of a list that go to a place, group by group. -/
private def partAt (setting : Option String) (specs : List PlacedSpec) (close : Nat)
    (imports : List Import) (place : Nat × Placement) : List Import :=
  ImportGroup.all.flatMap fun group => (imports.filter fun needed =>
    placeOf setting specs close needed == place).filter fun needed =>
      importGroup setting needed.path == group

/-- All places up to an offset, in order. -/
private def placesBelow (limit : Nat) : List (Nat × Placement) :=
  (List.range limit).flatMap fun offset => Placement.all.map fun placement => (offset, placement)

private theorem mem_partAt {place : Nat × Placement} {needed : Import}
    (member : needed ∈ partAt setting specs close imports place) :
    placeOf setting specs close needed = place := by
  obtain ⟨group, -, inside⟩ := List.mem_flatMap.mp member
  exact eq_of_beq (List.mem_filter.mp (List.mem_of_mem_filter inside)).2

private theorem placesBelow_pairwise (limit : Nat) : (placesBelow limit).Pairwise fun one other =>
    one.1 < other.1 ∨ one.1 = other.1 ∧ one.2.rank < other.2.rank := by
  have placements : Placement.all.Pairwise fun one other => one.rank < other.rank := by decide
  rw [placesBelow, List.pairwise_flatMap]
  refine ⟨fun offset _ => List.pairwise_map.mpr (placements.imp fun less => .inr ⟨rfl, less⟩),
    List.pairwise_lt_range.imp fun {one other} less => ?_⟩
  intro first member second member'
  obtain ⟨-, -, rfl⟩ := List.mem_map.mp member
  obtain ⟨-, -, rfl⟩ := List.mem_map.mp member'
  exact .inl less

/-- New imports stand in the order of their places, those of one place group by group. -/
private theorem placedOrder_eq {limit : Nat}
    (below : ∀ needed ∈ imports, (placeOf setting specs close needed).1 < limit) :
    placedOrder setting specs close imports =
      (placesBelow limit).flatMap (partAt setting specs close imports) := by
  -- Sorting by a key goes through the keys in order: by offset, placement and group.
  let keys := (placesBelow limit).flatMap fun place => ImportGroup.all.map fun group =>
    (toLex (place.1, toLex (place.2.rank, group.rank)) : Lex (Nat × Lex (Nat × Nat)))
  have ascending : keys.Pairwise (· < ·) := by
    have groups : ImportGroup.all.Pairwise fun one other => one.rank < other.rank := by decide
    refine List.pairwise_flatMap.mpr ⟨fun place _ => List.pairwise_map.mpr ?_,
      (placesBelow_pairwise limit).imp fun {one other} before first member second member' => ?_⟩
    · refine groups.imp fun less => ?_
      simp [Prod.Lex.toLex_lt_toLex, less]
    · obtain ⟨-, -, rfl⟩ := List.mem_map.mp member
      obtain ⟨-, -, rfl⟩ := List.mem_map.mp member'
      rw [Prod.Lex.toLex_lt_toLex, Prod.Lex.toLex_lt_toLex]
      exact before.imp_right (And.imp_right .inl)
  have listed : ∀ needed ∈ imports, (placeImport setting specs close needed).key ∈ keys := by
    intro needed member
    have place : placeOf setting specs close needed ∈ placesBelow limit :=
      List.mem_flatMap.mpr ⟨_, List.mem_range.mpr (below needed member),
        List.mem_map.mpr ⟨_, Placement.mem_all _, rfl⟩⟩
    exact List.mem_flatMap.mpr ⟨_, place, List.mem_map.mpr ⟨_, ImportGroup.mem_all _, rfl⟩⟩
  have keyed : ∀ one other : Import, (placeImport setting specs close one).mayPrecede
      (placeImport setting specs close other) = decide ((placeImport setting specs close one).key ≤
        (placeImport setting specs close other).key) := by
    intro one other
    rw [Bool.eq_iff_iff, PlacedLine.mayPrecede_iff, decide_eq_true_iff]
  rw [placedOrder, sortOrdered_eq_flatMap keyed ascending listed, List.flatMap_assoc]
  refine List.flatMap_congr fun place _ => ?_
  rw [partAt, List.flatMap_map]
  refine List.flatMap_congr fun group _ => ?_
  rw [List.filter_filter]
  refine List.filter_congr fun needed _ => ?_
  rw [Bool.eq_iff_iff, Bool.and_eq_true, beq_iff_eq, beq_iff_eq, decide_eq_true_iff, PlacedLine.key,
    group_placeImport]
  constructor
  · intro same
    obtain ⟨offset, rest⟩ := Prod.mk.inj (toLex.injective same)
    obtain ⟨placement, group⟩ := Prod.mk.inj (toLex.injective rest)
    exact ⟨ImportGroup.rank_inj group, Prod.ext offset (Placement.rank_inj placement)⟩
  · rintro ⟨rfl, rfl⟩
    rfl

/-- What a run puts in at its place: its imports, group by group. -/
private theorem runText_partAt (ordered : imports.Pairwise fun first second =>
    first.mayPrecede second = true) (place : Nat × Placement) :
    (runText place.2 ((partAt setting specs close imports place).map
      (placeImport setting specs close))).toList =
      (groupedImports setting (imports.filter fun needed =>
        placeOf setting specs close needed == place)).flatMap (setOff place.2) := by
  have keyed : ∀ one other : Import, ((placeImport setting specs close one).group ==
      (placeImport setting specs close other).group) =
        decide (importGroup setting one.path = importGroup setting other.path) := by
    intro one other
    rw [group_placeImport, group_placeImport, beq_eq_decide]
  have distinct : ImportGroup.all.Nodup := by decide
  rw [runText, gatherRuns_map, partAt, gatherRuns_flatMap keyed distinct
      fun group _ needed member => eq_of_beq (List.mem_filter.mp member).2,
    groupedImports_of_ordered setting (ordered.filter _)]
  generalize (ImportGroup.all.map _).filter _ = groups
  induction groups with
  | nil => rfl
  | cons group groups ih =>
    rw [List.map_cons, List.map_cons, String.join_cons, String.toList_append, ih, List.flatMap_cons,
      groupText_eq_setOff]

/-- The edits of runs put in what goes to each place, if every run goes to one place. -/
private theorem addedAt_runInsertion {part : Nat × Placement → List Import}
    (parts : ∀ place, ∀ needed ∈ part place, placeOf setting specs close needed = place)
    (places : List (Nat × Placement)) (offset : Nat) :
    addedAt (((places.map part).filter fun run => !run.isEmpty).filterMap
        (runInsertion setting specs close)) offset =
      places.flatMap fun place => if place.1 = offset then
        (runText place.2 ((part place).map (placeImport setting specs close))).toList else [] := by
  induction places with
  | nil => rfl
  | cons place places ih =>
    rw [List.map_cons, List.flatMap_cons]
    have here := parts place
    cases run : part place with
    | nil =>
      have nothing : (runText place.2 (([] : List Import).map
          (placeImport setting specs close))).toList = [] := rfl
      rw [nothing, ite_self, List.nil_append, ← ih]
      rfl
    -- All imports of a run go to the place of the first one.
    | cons first others =>
      rw [run] at here
      obtain rfl := here first (by simp)
      have made : runInsertion setting specs close (first :: others) =
          some (.insertion (placeOf setting specs close first).1 (runText
            (placeOf setting specs close first).2
              ((first :: others).map (placeImport setting specs close)))) := rfl
      rw [List.filter_cons_of_pos rfl, List.filterMap_cons_some made]
      split
      · rename_i here
        subst here
        rw [addedAt_cons_self, ih]
      · rename_i elsewhere
        rw [addedAt_cons_of_ne elsewhere, ih]
        rfl

/-- In a list without repeats, what one element alone gives is what all of them give. -/
private theorem flatMap_of_forall_ne {α β : Type} {xs : List α} {x : α} {f : α → List β}
    (distinct : xs.Nodup) (member : x ∈ xs) (others : ∀ y, y ≠ x → f y = []) :
    xs.flatMap f = f x := by
  obtain ⟨front, back, rfl⟩ := List.append_of_mem member
  have apart := List.nodup_middle.mp distinct
  have none : ∀ {ys : List α}, x ∉ ys → ys.flatMap f = [] := fun absent =>
    List.flatMap_eq_nil_iff.mpr fun y inside => others y (by rintro rfl; exact absent inside)
  have absent := (List.nodup_cons.mp apart).1
  rw [List.mem_append, not_or] at absent
  rw [List.flatMap_append, List.flatMap_cons, none absent.1, none absent.2]
  simp

/-- At every offset the edits of a declaration put in the imports that are placed there. -/
theorem addedAt_blockEdits (lines : isInline specs close = false) (ordered : imports.Pairwise
    fun first second => first.mayPrecede second = true) (offset : Nat) :
    addedAt (blockEdits setting specs close imports) offset =
      placedAt setting (placeOf setting specs close) imports offset := by
  -- With a limit to the offsets there is a list of all places.
  obtain ⟨limit, below, inside⟩ : ∃ limit, (∀ needed ∈ imports,
      (placeOf setting specs close needed).1 < limit) ∧ offset < limit := by
    refine ⟨(imports.map fun needed => (placeOf setting specs close needed).1).sum + offset + 1,
      fun needed member => ?_, by omega⟩
    have := List.le_sum_of_mem (List.mem_map_of_mem (f := fun needed =>
      (placeOf setting specs close needed).1) member)
    omega
  have keyed : ∀ one other : Import, ((placeImport setting specs close one).offset ==
      (placeImport setting specs close other).offset &&
        (placeImport setting specs close one).placement ==
          (placeImport setting specs close other).placement) =
      decide (placeOf setting specs close one = placeOf setting specs close other) := by
    intro one other
    rw [Bool.eq_iff_iff, Bool.and_eq_true, beq_iff_eq, beq_iff_eq, decide_eq_true_iff, placeOf,
      placeOf, Prod.mk.injEq]
  have distinct : (placesBelow limit).Nodup :=
    (placesBelow_pairwise limit).imp fun before same => by
      rw [same] at before
      omega
  rw [blockEdits_of_lines lines, placedRuns, placedOrder_eq below, gatherRuns_flatMap keyed distinct
    fun place _ needed => mem_partAt, addedAt_runInsertion fun place needed => mem_partAt,
    placesBelow, List.flatMap_assoc, flatMap_of_forall_ne List.nodup_range
      (List.mem_range.mpr inside), List.flatMap_map, placedAt]
  · refine List.flatMap_congr fun placement _ => ?_
    rw [if_pos rfl, runText_partAt ordered]
  -- Places with another offset put nothing in here.
  · intro other different
    rw [List.flatMap_map, List.flatMap_eq_nil_iff]
    exact fun placement _ => if_neg different

end Placed

end Scaffold
