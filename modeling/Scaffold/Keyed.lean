/-! Lists of keys with values, kept in the order of the keys. -/

namespace Scaffold

/-- Sets the value of a key, at the place the key has in the order of keys. -/
def insertKeyed {α : Type} (key : String) (value : α) :
    List (String × α) → List (String × α)
  | [] => [(key, value)]
  | (other, held) :: rest =>
    if key == other then (key, value) :: rest
    else if key < other then (key, value) :: (other, held) :: rest
    else (other, held) :: insertKeyed key value rest

/-- A key that was set has its new value. -/
theorem lookup_insertKeyed {α : Type} (key : String) (value : α) (entries : List (String × α)) :
    (insertKeyed key value entries).lookup key = some value := by
  -- Entries passed over have other keys.
  induction entries with
  | nil => simp [insertKeyed]
  | cons entry rest ih =>
    obtain ⟨other, held⟩ := entry
    rw [insertKeyed]
    split
    · simp
    · rename_i differs
      split
      · simp
      · rw [List.lookup_cons]
        simp only [Bool.not_eq_true] at differs
        rw [differs]
        exact ih

/-- Setting a key leaves the values of all other keys. -/
theorem lookup_insertKeyed_of_ne {α : Type} {key asked : String} (value : α)
    (entries : List (String × α)) (differs : asked ≠ key) :
    (insertKeyed key value entries).lookup asked = entries.lookup asked := by
  -- The new entry is passed over, all others keep their order.
  have other : (asked == key) = false := by simpa using differs
  induction entries with
  | nil => simp [insertKeyed, List.lookup_cons, other]
  | cons entry rest ih =>
    obtain ⟨held, kept⟩ := entry
    rw [insertKeyed]
    split
    · rename_i same
      simp only [beq_iff_eq] at same
      subst same
      simp [List.lookup_cons, other]
    · split
      · simp [List.lookup_cons, other]
      · simp [List.lookup_cons, ih]

end Scaffold
