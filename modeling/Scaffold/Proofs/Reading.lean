import Scaffold.Reading

/-! What compound readers do, told by what their parts do. -/

namespace Scaffold.Reading

variable {τ α β : Type}

theorem pure_run (a : α) (xs : List τ) : (pure a : Reading τ α) xs = some (a, xs) := rfl

theorem bind_run (reader : Reading τ α) (next : α → Reading τ β) (xs : List τ) :
    (reader >>= next) xs = (reader xs).bind fun pair => next pair.1 pair.2 := rfl

theorem map_run (f : α → β) (reader : Reading τ α) (xs : List τ) :
    (f <$> reader) xs = (reader xs).map fun pair => (f pair.1, pair.2) := by
  have unfolded : (f <$> reader) xs = (reader xs).bind fun pair => some (f pair.1, pair.2) := rfl
  rw [unfolded, Option.map_eq_bind]
  rfl

theorem either_run (first second : Reading τ α) (xs : List τ) :
    either first second xs = (first xs).or (second xs) := by
  unfold either
  cases first xs <;> rfl

/-- An optional reader succeeds in any case. -/
theorem maybe_run (reader : Reading τ α) (xs : List τ) :
    maybe reader xs = match reader xs with
      | some (a, rest) => some (some a, rest)
      | none => some (none, xs) := by
  rw [maybe, either_run, map_run]
  cases reader xs <;> rfl

theorem withTaken_run (reader : Reading τ α) (xs : List τ) :
    withTaken reader xs = (reader xs).map fun pair =>
      ((pair.1, xs.take (xs.length - pair.2.length)), pair.2) := by
  have unfolded : withTaken reader xs = (reader xs).bind fun pair =>
      some ((pair.1, xs.take (xs.length - pair.2.length)), pair.2) := rfl
  rw [unfolded, Option.map_eq_bind]
  rfl

/-- A repeated reader stops at its first failure. -/
theorem manyWithin_succ_run (reader : Reading τ α) (limit : Nat) (xs : List τ) :
    manyWithin reader (limit + 1) xs = match reader xs with
      | none => some ([], xs)
      | some (a, rest) => (manyWithin reader limit rest).map fun pair => (a :: pair.1, pair.2) := by
  rw [manyWithin, bind_run, maybe_run]
  cases reader xs with
  | none => rfl
  | some pair =>
    simp only [Option.bind_some, bind_run, pure_run, Option.map_eq_bind]
    rfl

theorem many_run (reader : Reading τ α) (xs : List τ) :
    many reader xs = manyWithin reader xs.length xs := rfl

end Scaffold.Reading
