import Mathlib.Data.String.Basic
import Scaffold.Keyed

/-! Lists kept in the strict order of their keys hold each key once. -/

namespace Scaffold

/-- The keys stand in strictly ascending order. -/
def InKeyOrder {α : Type} (entries : List (String × α)) : Prop :=
  entries.Pairwise fun first second => first.1 < second.1

variable {α : Type}

/-- A key has no value exactly when no entry has that key. -/
theorem lookup_eq_none_iff_forall {key : String} {entries : List (String × α)} :
    entries.lookup key = none ↔ ∀ entry ∈ entries, entry.1 ≠ key := by
  rw [List.lookup_eq_none_iff]
  constructor
  · intro differs entry member same
    simpa [same] using differs entry member
  · intro differs entry member
    simpa using (differs entry member).symm

/-- The value found under a key stands beside that key in the list. -/
theorem mem_of_lookup {key : String} {value : α} {entries : List (String × α)}
    (found : entries.lookup key = some value) : (key, value) ∈ entries := by
  -- The entries passed over only stand in front.
  obtain ⟨before, after, rfl, _⟩ := List.lookup_eq_some_iff.mp found
  simp

/-- In key order, every entry is the one its key is looked up to. -/
theorem lookup_of_mem {key : String} {value : α} {entries : List (String × α)}
    (ordered : InKeyOrder entries) (member : (key, value) ∈ entries) :
    entries.lookup key = some value := by
  -- Entries before it have smaller keys, so none of them answers the lookup.
  induction entries with
  | nil => cases member
  | cons entry rest ih =>
    obtain ⟨least, later⟩ := List.pairwise_cons.mp ordered
    rcases List.mem_cons.mp member with rfl | behind
    · simp
    · have smaller : entry.1 < key := least _ behind
      have differs : (key == entry.1) = false := beq_false_of_ne (ne_of_gt smaller)
      rw [List.lookup_cons, differs]
      exact ih later behind

/-- Setting a key gives it a value and takes none away. -/
theorem isSome_lookup_insertKeyed (key asked : String) (value : α)
    (entries : List (String × α)) :
    ((insertKeyed key value entries).lookup asked).isSome = true ↔
      asked = key ∨ (entries.lookup asked).isSome = true := by
  by_cases same : asked = key
  · simp [same, lookup_insertKeyed]
  · simp [same, lookup_insertKeyed_of_ne value entries same]

/-- Setting a key that has no value adds one entry and keeps all others. -/
theorem insertKeyed_perm_of_new {key : String} {value : α} {entries : List (String × α)}
    (new : entries.lookup key = none) :
    (insertKeyed key value entries).Perm ((key, value) :: entries) := by
  -- No entry has the key, so none is replaced.
  induction entries with
  | nil => exact .refl _
  | cons first rest ih =>
    obtain ⟨other, held⟩ := first
    have differs : (key == other) = false := by
      by_contra same
      simp only [Bool.not_eq_false] at same
      simp [List.lookup_cons, same] at new
    rw [List.lookup_cons, differs] at new
    rw [insertKeyed, differs, if_neg Bool.false_ne_true]
    split
    · exact .refl _
    · exact ((ih new).cons _).trans (.swap _ _ _)

/-- The entries after setting a key that has no value: the new one and those from before. -/
theorem mem_insertKeyed_of_new {key : String} {value : α} {entries : List (String × α)}
    (new : entries.lookup key = none) {entry : String × α} :
    entry ∈ insertKeyed key value entries ↔ entry = (key, value) ∨ entry ∈ entries :=
  (insertKeyed_perm_of_new new).mem_iff.trans List.mem_cons

/-- Setting a key keeps the keys in order. -/
theorem inKeyOrder_insertKeyed (key : String) (value : α) {entries : List (String × α)}
    (ordered : InKeyOrder entries) : InKeyOrder (insertKeyed key value entries) := by
  -- A key passes exactly the entries with smaller keys.
  have greater : ∀ {entries : List (String × α)} {low : String}, low < key →
      (∀ entry ∈ entries, low < entry.1) →
      ∀ entry ∈ insertKeyed key value entries, low < entry.1 := by
    intro entries low least others
    induction entries with
    | nil => simpa [insertKeyed] using least
    | cons first rest ih =>
      obtain ⟨head, tail⟩ := List.forall_mem_cons.mp others
      rw [insertKeyed]
      split
      · exact List.forall_mem_cons.mpr ⟨least, tail⟩
      · split
        · exact List.forall_mem_cons.mpr ⟨least, others⟩
        · exact List.forall_mem_cons.mpr ⟨head, ih tail⟩
  induction entries with
  | nil => exact List.pairwise_singleton _ _
  | cons first rest ih =>
    obtain ⟨other, held⟩ := first
    obtain ⟨least, later⟩ := List.pairwise_cons.mp ordered
    rw [insertKeyed]
    split
    · rename_i same
      simp only [beq_iff_eq] at same
      subst same
      exact List.pairwise_cons.mpr ⟨least, later⟩
    · rename_i differs
      split
      · rename_i below
        refine List.pairwise_cons.mpr ⟨?_, ordered⟩
        exact List.forall_mem_cons.mpr ⟨below, fun entry member => below.trans (least entry member)⟩
      · rename_i above
        have larger : other < key := by
          refine lt_of_le_of_ne (not_lt.mp above) fun same => differs ?_
          exact beq_iff_eq.mpr same.symm
        exact List.pairwise_cons.mpr ⟨greater larger least, ih later⟩

/-- Names that have values are among the keys. -/
theorem subset_keys {entries : List (String × α)} {names : List String}
    (among : ∀ name ∈ names, (entries.lookup name).isSome = true) :
    names ⊆ entries.map Prod.fst := by
  intro name member
  obtain ⟨value, held⟩ := Option.isSome_iff_exists.mp (among name member)
  exact List.mem_map_of_mem (mem_of_lookup held)

/-- Values that are changed are found under the same keys. -/
theorem lookup_map {β : Type} (f : String → α → β) (name : String)
    (entries : List (String × α)) :
    (entries.map fun entry => (entry.1, f entry.1 entry.2)).lookup name =
      (entries.lookup name).map (f name) := by
  induction entries with
  | nil => rfl
  | cons entry rest ih =>
    rw [List.map_cons, List.lookup_cons, List.lookup_cons, ih]
    cases same : name == entry.1 with
    | true => rw [eq_of_beq same]; rfl
    | false => rfl

/-- Entries with the same keys in the same order are found under these keys. -/
theorem lookup_of_forall₂ {β : Type} {holds : String → α → β → Prop}
    {entries : List (String × α)} {others : List (String × β)}
    (each : List.Forall₂ (fun entry other => other.1 = entry.1 ∧ holds entry.1 entry.2 other.2)
      entries others) {name : String} {value : α} (found : entries.lookup name = some value) :
    ∃ other, others.lookup name = some other ∧ holds name value other := by
  induction each with
  | nil => cases found
  | @cons entry other entries others first rest ih =>
    obtain ⟨key, value'⟩ := entry
    obtain ⟨key', other⟩ := other
    obtain ⟨rfl, here⟩ := first
    rw [List.lookup_cons] at found ⊢
    cases same : name == key' with
    | true =>
      simp only [same] at found ⊢
      cases found
      rw [eq_of_beq same]
      exact ⟨other, rfl, here⟩
    | false =>
      simp only [same] at found ⊢
      exact ih found

end Scaffold
