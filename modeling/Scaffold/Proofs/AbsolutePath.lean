import Mathlib.Data.List.Basic
import Scaffold.Proofs.FilePath

/-! Absolute paths in their plain spelling: a slash, and names with single slashes between them. -/

namespace Scaffold

/-- Pieces without separators are found again in what they are joined to. -/
theorem splitOn_joinWith {separator : Char} {pieces : List (List Char)} (some : pieces ≠ [])
    (plain : ∀ piece ∈ pieces, separator ∉ piece) :
    splitOn separator (joinWith [separator] pieces) = pieces := by
  induction pieces with
  | nil => exact absurd rfl some
  | cons piece rest ih =>
    obtain ⟨first, others⟩ := List.forall_mem_cons.mp plain
    cases rest with
    | nil => exact splitOn_of_not_mem first
    | cons next more =>
      rw [joinWith, List.append_assoc, List.singleton_append, splitOn_append,
        splitOn_of_not_mem first, ih (by simp) others]
      rfl

/-- One more piece is joined behind the others. -/
theorem joinWith_concat (between : List Char) {pieces : List (List Char)} (some : pieces ≠ [])
    (last : List Char) :
    joinWith between (pieces ++ [last]) = joinWith between pieces ++ between ++ last := by
  induction pieces with
  | nil => exact absurd rfl some
  | cons piece rest ih =>
    cases rest with
    | nil => rfl
    | cons next more =>
      have inner := ih (by simp)
      rw [List.cons_append] at inner
      rw [List.cons_append, List.cons_append, joinWith, inner, joinWith]
      simp only [List.append_assoc]

namespace FilePath

/-- The path that leads from the root through some names. -/
def absolute (names : List String) : FilePath :=
  ⟨String.ofList ('/' :: joinWith ['/'] (names.map String.toList))⟩

/-- Whether a path leads from the root through names, and is spelled without a detour. -/
def IsPlain (path : FilePath) : Prop :=
  ∃ names : List String, (∀ name ∈ names, IsFileName name.toList) ∧ path = absolute names

section Absolute

variable {names : List String}

theorem leading_absolute (names : List String) :
    (absolute names).leading = (['/'], joinWith ['/'] (names.map String.toList)) := by
  simp [leading, absolute]

/-- The pieces of a path through names are the names. -/
theorem pieces_absolute (solid : ∀ name ∈ names, IsFileName name.toList) :
    (splitOn '/' (absolute names).leading.2).filter (fun piece => !isVoid piece) =
      names.map String.toList := by
  rw [leading_absolute]
  cases names with
  | nil => rfl
  | cons name rest =>
    rw [splitOn_joinWith (by simp)]
    · refine List.filter_eq_self.mpr fun piece member => ?_
      obtain ⟨held, among, rfl⟩ := List.mem_map.mp member
      simp [(solid held among).solid]
    · intro piece member
      obtain ⟨held, among, rfl⟩ := List.mem_map.mp member
      exact (solid held among).unbroken

theorem components_absolute (solid : ∀ name ∈ names, IsFileName name.toList) :
    (absolute names).components = .root :: names.map .named := by
  have named : ∀ name ∈ names, pieceComponent name.toList = .named name := by
    intro name member
    simp [pieceComponent, (solid name member).named]
  have lead : (absolute names).leading.1 = ['/'] := by rw [leading_absolute]
  have parts : (names.map String.toList).map pieceComponent = names.map .named := by
    rw [List.map_map]
    exact List.map_congr_left named
  unfold components
  simp only [pieces_absolute solid, lead, parts]
  rfl

/-- Plain paths with the same components are equal. -/
theorem IsPlain.eq_of_same {first second : FilePath} (plain : first.IsPlain)
    (plain' : second.IsPlain) (same : first.same second = true) : first = second := by
  obtain ⟨names, solid, rfl⟩ := plain
  obtain ⟨others, solid', rfl⟩ := plain'
  have components := eq_of_beq same
  rw [components_absolute solid, components_absolute solid'] at components
  have equal : names = others := by
    have injective : Function.Injective Component.named := fun _ _ => Component.named.inj
    exact injective.list_map (List.cons.inj components).2
  rw [equal]

/-- The solid pieces of a path through names are all of them. -/
theorem solidPieces_absolute (solid : ∀ name ∈ names, IsFileName name.toList) (some : names ≠ []) :
    (absolute names).solidPieces = names.map String.toList := by
  have pieces : splitOn '/' (absolute names).leading.2 = names.map String.toList := by
    rw [leading_absolute]
    refine splitOn_joinWith (by simpa using some) fun piece member => ?_
    obtain ⟨held, among, rfl⟩ := List.mem_map.mp member
    exact (solid held among).unbroken
  rw [solidPieces, pieces]
  -- The last name is not void, so nothing is dropped.
  obtain ⟨front, last, rfl⟩ := (List.eq_nil_or_concat names).resolve_left some
  have held := (solid last (by simp)).solid
  simp [dropTrailing, held]

theorem parent?_absolute_nil : (absolute []).parent? = none := by
  decide

/-- One name less leads to the parent. -/
theorem parent?_absolute {name : String} (solid : ∀ other ∈ names, IsFileName other.toList)
    (last : IsFileName name.toList) :
    (absolute (names ++ [name])).parent? = some (absolute names) := by
  have all : ∀ other ∈ names ++ [name], IsFileName other.toList := by
    intro other member
    rcases List.mem_append.mp member with before | here
    · exact solid other before
    · exact List.mem_singleton.mp here ▸ last
  have kept : dropTrailing isVoid (names.map String.toList) = names.map String.toList := by
    rcases List.eq_nil_or_concat names with rfl | ⟨front, final, rfl⟩
    · rfl
    · simp [dropTrailing, (solid final (by simp)).solid]
  have pieces := solidPieces_absolute all (by simp)
  unfold parent?
  rw [pieces, leading_absolute]
  simp only [List.map_append, List.map_cons, List.map_nil]
  split
  · rename_i none
    simp at none
  · rw [List.dropLast_concat, kept]
    rfl

theorem toList_text_absolute (names : List String) :
    (absolute names).text.toList = '/' :: joinWith ['/'] (names.map String.toList) := by
  rw [absolute, String.toList_ofList]

/-- Only the root ends in a slash. -/
theorem finishesWith_absolute {name : String} (last : IsFileName name.toList)
    (names : List String) : finishesWith (absolute (names ++ [name])).text "/" = false := by
  rw [finishesWith, Bool.eq_false_iff]
  intro ends
  obtain ⟨more, whole⟩ := List.isSuffixOf_iff_suffix.mp ends
  obtain ⟨front, text⟩ : ∃ front, (absolute (names ++ [name])).text.toList = front ++ name.toList := by
    rw [toList_text_absolute, List.map_append]
    cases names with
    | nil => exact ⟨['/'], rfl⟩
    | cons first rest =>
      exact ⟨_, by rw [List.map_singleton, joinWith_concat _ (by simp), ← List.cons_append]⟩
  rw [text] at whole
  -- The name is not empty, so its last character would be the slash.
  rcases List.eq_nil_or_concat name.toList with none | ⟨start, final, split⟩
  · have solid := last.solid
    rw [none] at solid
    cases solid
  · rw [split, List.concat_eq_append, ← List.append_assoc] at whole
    have slash : final = '/' := by simpa using (List.append_inj_right' whole rfl).symm
    apply last.unbroken
    rw [split, slash]
    simp

/-- A name is joined to a path by leading one step further. -/
theorem join_absolute {name : String} (solid : ∀ other ∈ names, IsFileName other.toList)
    (last : IsFileName name.toList) : (absolute names).join name = absolute (names ++ [name]) := by
  have unled : beginsWith name "/" = false := by
    rw [beginsWith, Bool.eq_false_iff]
    intro leads
    obtain ⟨rest, whole⟩ := List.isPrefixOf_iff_prefix.mp leads
    exact last.unbroken (by rw [← whole]; simp)
  have filled : (absolute names).text.isEmpty = false := by
    rw [Bool.eq_false_iff]
    intro empty
    have none := toList_text_absolute names
    rw [String.isEmpty_iff.mp empty] at none
    cases none
  have equal : ∀ text : String, text.toList = (absolute (names ++ [name])).text.toList →
      FilePath.mk text = absolute (names ++ [name]) :=
    fun text same => congrArg FilePath.mk (String.toList_inj.mp same)
  rw [join, unled, filled, if_neg (by simp), Bool.false_or]
  rcases List.eq_nil_or_concat names with rfl | ⟨front, final, rfl⟩
  · -- Behind the root no second slash is put.
    rw [if_pos (by decide)]
    apply equal
    rw [String.toList_append, toList_text_absolute, toList_text_absolute]
    rfl
  · rw [List.concat_eq_append] at *
    rw [finishesWith_absolute (solid final (by simp)), if_neg (by simp)]
    apply equal
    have longer : (front ++ [final] ++ [name]).map String.toList =
        (front ++ [final]).map String.toList ++ [name.toList] := List.map_append
    rw [String.toList_append, String.toList_append, toList_text_absolute, toList_text_absolute,
      longer, joinWith_concat _ (by simp)]
    simp

/-- A path through names and one more name is plain. -/
theorem IsPlain.join {path : FilePath} {name : String} (plain : path.IsPlain)
    (last : IsFileName name.toList) :
    (path.join name).IsPlain ∧ (path.join name).parent? = some path := by
  obtain ⟨names, solid, rfl⟩ := plain
  rw [join_absolute solid last]
  refine ⟨⟨names ++ [name], ?_, rfl⟩, parent?_absolute solid last⟩
  intro other member
  rcases List.mem_append.mp member with before | here
  · exact solid other before
  · exact List.mem_singleton.mp here ▸ last

/-- A plain path is the root, or leads from its parent by one name. -/
theorem IsPlain.cases {path : FilePath} (plain : path.IsPlain) : path = absolute [] ∨
    ∃ (parent : FilePath) (name : String), parent.IsPlain ∧ IsFileName name.toList ∧ path = parent.join name := by
  obtain ⟨names, solid, rfl⟩ := plain
  rcases List.eq_nil_or_concat names with rfl | ⟨front, final, rfl⟩
  · exact .inl rfl
  · rw [List.concat_eq_append] at *
    have before : ∀ name ∈ front, IsFileName name.toList :=
      fun name member => solid name (List.mem_append_left _ member)
    have last := solid final (by simp)
    exact .inr ⟨absolute front, final, ⟨front, before, rfl⟩, last, (join_absolute before last).symm⟩

end Absolute

instance (name : List Char) : Decidable (IsFileName name) :=
  decidable_of_iff ('/' ∉ name ∧ isVoid name = false ∧ name ≠ ['.', '.'])
    ⟨fun ⟨unbroken, solid, named⟩ => ⟨unbroken, solid, named⟩,
      fun ⟨unbroken, solid, named⟩ => ⟨unbroken, solid, named⟩⟩

/-- A plain path is spelled by the texts of its components. -/
theorem isPlain_iff (path : FilePath) : path.IsPlain ↔
    (∀ name ∈ path.components.tail.map Component.text, IsFileName name.toList) ∧
      path = absolute (path.components.tail.map Component.text) := by
  constructor
  · rintro ⟨names, solid, rfl⟩
    have spelled : (absolute names).components.tail.map Component.text = names := by
      rw [components_absolute solid, List.tail_cons, List.map_map]
      exact List.map_id names
    rw [spelled]
    exact ⟨solid, rfl⟩
  · rintro ⟨solid, spelled⟩
    exact ⟨_, solid, spelled⟩

instance (path : FilePath) : Decidable path.IsPlain :=
  decidable_of_iff _ path.isPlain_iff.symm

/-- What holds of a path and passes on to parents holds of all its ancestors. -/
theorem forall_mem_ancestors {good : FilePath → Prop} {path : FilePath} (here : good path)
    (above : ∀ path parent, good path → path.parent? = some parent → good parent) :
    ∀ ancestor ∈ path.ancestors, good ancestor := by
  rw [ancestors]
  generalize path.components.length = limit
  induction limit generalizing path with
  | zero => simpa [ancestorsWithin] using here
  | succ limit ih =>
    rw [ancestorsWithin, List.forall_mem_cons]
    refine ⟨here, ?_⟩
    cases up : path.parent? with
    | none => simp
    | some parent => exact ih (above path parent here up)

end FilePath

end Scaffold
