/-! Readers, which take elements off the front of a list, or fail and take none. -/

namespace Scaffold

/-- A reader of elements that gives some result. -/
abbrev Reading (τ α : Type) := StateT (List τ) Option α

namespace Reading

variable {τ α : Type}

/-- The elements not read yet. -/
def remaining : Reading τ (List τ) :=
  get

/-- Reads one element satisfying a test. -/
def one (test : τ → Bool) : Reading τ τ := fun elements =>
  match elements with
  | [] => none
  | first :: rest => if test first then some (first, rest) else none

/-- The next element, which stays unread. -/
def next : Reading τ τ := fun elements =>
  match elements with
  | [] => none
  | first :: rest => some (first, first :: rest)

/-- Reads with the first reader, or with the second if the first fails. -/
def either (first second : Reading τ α) : Reading τ α := fun elements =>
  match first elements with
  | some result => some result
  | none => second elements

/-- Reads if it can. -/
def maybe (reader : Reading τ α) : Reading τ (Option α) :=
  either (some <$> reader) (pure none)

/-- Reads as often as it can, up to a limit. -/
def manyWithin (reader : Reading τ α) : Nat → Reading τ (List α)
  | 0 => pure []
  | limit + 1 => do
    match ← maybe reader with
    | none => return []
    | some first => return first :: (← manyWithin reader limit)

/-- Reads as often as it can. -/
def many (reader : Reading τ α) : Reading τ (List α) := do
  -- Every round takes at least one element.
  manyWithin reader (← remaining).length

/-- Reads one or more with a separator between them. -/
def separatedBy {σ : Type} (separator : Reading τ σ) (reader : Reading τ α) :
    Reading τ (List α) := do
  let first ← reader
  let rest ← many (separator *> reader)
  return first :: rest

/-- Reads what a reader reads, together with the elements it takes. -/
def withTaken (reader : Reading τ α) : Reading τ (α × List τ) := do
  let before ← remaining
  let result ← reader
  let after ← remaining
  return (result, before.take (before.length - after.length))

/-- Reads the longest run of elements satisfying a test, which may be empty. -/
def run (test : τ → Bool) : Reading τ (List τ) := fun elements =>
  some (elements.takeWhile test, elements.dropWhile test)

end Reading

end Scaffold
