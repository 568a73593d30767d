import Mathlib.Data.List.Basic

/-! Texts whose brackets close in the order in which they open. -/

namespace Scaffold

/-- Which brackets of a text are looked at. -/
structure Brackets where
  braces : Bool
  parentheses : Bool
  deriving DecidableEq, Repr

namespace Brackets

/-- All brackets that are told apart. -/
def all : Brackets :=
  ⟨true, true⟩

/-- Whether a character is one of the brackets. -/
def reads (kinds : Brackets) (c : Char) : Bool :=
  (kinds.braces && (c == '\x7b' || c == '\x7d')) || (kinds.parentheses && (c == '(' || c == ')'))

/-- The characters among some that are brackets. -/
def only (kinds : Brackets) (chars : List Char) : List Char :=
  chars.filter kinds.reads

end Brackets

/-- The character that closes what a character opens. -/
def closer? (c : Char) : Option Char :=
  if c == '\x7b' then some '\x7d' else if c == '(' then some ')' else none

/--
The closing brackets that are missing behind one more bracket, the next one first.

An opening bracket asks for one more, and a closing bracket has to be the next one.
-/
def meetBracket (missing : List Char) (c : Char) : Option (List Char) :=
  match closer? c with
  | some closer => some (closer :: missing)
  | none =>
    match missing with
    | [] => none
    | next :: later => if next == c then some later else none

/-- The closing brackets that are missing behind a text. -/
def missingBehind (kinds : Brackets) (missing : List Char) : List Char → Option (List Char)
  | [] => some missing
  | c :: rest =>
    if kinds.reads c then
      (meetBracket missing c).bind fun missing => missingBehind kinds missing rest
    else missingBehind kinds missing rest

/-- All brackets of a text are closed in it, in the order that their opening asks for. -/
def IsBalanced (kinds : Brackets) (text : List Char) : Prop :=
  missingBehind kinds [] text = some []

instance (kinds : Brackets) (text : List Char) : Decidable (IsBalanced kinds text) :=
  inferInstanceAs (Decidable (_ = _))

section Missing

variable {kinds : Brackets} {missing left : List Char}

/-- Where no bracket is looked at, nothing more is missing. -/
theorem missingBehind_of_free {text : List Char} (free : ∀ c ∈ text, kinds.reads c = false)
    (missing : List Char) : missingBehind kinds missing text = some missing := by
  induction text with
  | nil => rfl
  | cons c text ih =>
    obtain ⟨here, others⟩ := List.forall_mem_cons.mp free
    rw [missingBehind, here, if_neg Bool.false_ne_true, ih others]

/-- One text is read behind the other. -/
theorem missingBehind_append (kinds : Brackets) (missing first second : List Char) :
    missingBehind kinds missing (first ++ second) =
      (missingBehind kinds missing first).bind fun left => missingBehind kinds left second := by
  induction first generalizing missing with
  | nil => rfl
  | cons c first ih =>
    rw [List.cons_append, missingBehind, missingBehind]
    split
    · cases meetBracket missing c with
      | none => rfl
      | some next => exact ih next
    · exact ih missing

/-- A bracket asks for its closing one, or is the one that was asked for last. -/
theorem meetBracket_eq_some {c : Char} : meetBracket missing c = some left ↔
    (∃ closer, closer? c = some closer ∧ left = closer :: missing) ∨
      (closer? c = none ∧ missing = c :: left) := by
  unfold meetBracket
  cases closing : closer? c with
  | some closer => simp [eq_comm]
  | none =>
    cases missing with
    | nil => simp
    | cons next later =>
      by_cases same : next = c
      · simp [same]
      · simp [same]

/-- A bracket that is met leaves alone what is missing later. -/
theorem meetBracket_below {c : Char} (met : meetBracket missing c = some left)
    (below : List Char) : meetBracket (missing ++ below) c = some (left ++ below) := by
  rw [meetBracket_eq_some] at met ⊢
  rcases met with ⟨closer, closing, rfl⟩ | ⟨closing, rfl⟩
  · exact .inl ⟨closer, closing, rfl⟩
  · exact .inr ⟨closing, rfl⟩

/-- A text that can be read leaves alone what is missing later. -/
theorem missingBehind_below {text : List Char} (read : missingBehind kinds missing text = some left)
    (below : List Char) :
    missingBehind kinds (missing ++ below) text = some (left ++ below) := by
  induction text generalizing missing with
  | nil =>
    cases read
    rfl
  | cons c text ih =>
    rw [missingBehind] at read ⊢
    split at read
    · rename_i bracket
      obtain ⟨next, met, rest⟩ := Option.bind_eq_some_iff.mp read
      rw [if_pos bracket, meetBracket_below met, Option.bind_some]
      exact ih rest
    · rename_i other
      rw [if_neg other]
      exact ih read

/-- A character is looked at as one of all brackets, if it is looked at at all. -/
theorem reads_all {c : Char} (bracket : kinds.reads c = true) : Brackets.all.reads c = true := by
  simp only [Brackets.reads, Brackets.all, Bool.true_and, Bool.or_eq_true, Bool.and_eq_true]
    at bracket ⊢
  exact bracket.imp And.right And.right

/-- An opening bracket is looked at exactly if its closing one is. -/
theorem reads_closer (kinds : Brackets) {c closer : Char} (closing : closer? c = some closer) :
    kinds.reads closer = kinds.reads c := by
  rw [closer?] at closing
  split at closing
  · rename_i brace
    obtain rfl := eq_of_beq brace
    cases closing
    simp [Brackets.reads]
  · split at closing
    · rename_i parenthesis
      obtain rfl := eq_of_beq parenthesis
      cases closing
      simp [Brackets.reads]
    · cases closing

/-- With fewer brackets looked at, one that is met is met again or passed over. -/
theorem meetBracket_only (kinds : Brackets) {c : Char}
    (met : meetBracket missing c = some left) :
    (if kinds.reads c then meetBracket (kinds.only missing) c else some (kinds.only missing)) =
      some (kinds.only left) := by
  rcases meetBracket_eq_some.mp met with ⟨closer, closing, rfl⟩ | ⟨closing, rfl⟩
  · have both := reads_closer kinds closing
    split
    · rename_i bracket
      rw [meetBracket_eq_some, Brackets.only, Brackets.only,
        List.filter_cons_of_pos (both.trans bracket)]
      exact .inl ⟨closer, closing, rfl⟩
    · rename_i other
      rw [Brackets.only, Brackets.only, List.filter_cons_of_neg (by rwa [both])]
  · split
    · rename_i bracket
      rw [meetBracket_eq_some, Brackets.only, Brackets.only, List.filter_cons_of_pos bracket]
      exact .inr ⟨closing, rfl⟩
    · rename_i other
      rw [Brackets.only, Brackets.only, List.filter_cons_of_neg other]

/-- What can be read with all brackets can be read with some of them. -/
theorem missingBehind_only {text : List Char}
    (read : missingBehind .all missing text = some left) :
    missingBehind kinds (kinds.only missing) text = some (kinds.only left) := by
  induction text generalizing missing with
  | nil =>
    cases read
    rfl
  | cons c text ih =>
    rw [missingBehind] at read ⊢
    split at read
    · obtain ⟨next, met, rest⟩ := Option.bind_eq_some_iff.mp read
      have fewer := meetBracket_only kinds met
      split
      · rename_i bracket
        rw [if_pos bracket] at fewer
        rw [fewer, Option.bind_some]
        exact ih rest
      · rename_i other
        rw [if_neg other] at fewer
        rw [Option.some.inj fewer]
        exact ih rest
    · rename_i other
      rw [if_neg fun bracket => other (reads_all bracket)]
      exact ih read

end Missing

/-- A text closes some brackets that were opened before it, and leaves others open. -/
def Turns (kinds : Brackets) (missing left : List Char) (text : String) : Prop :=
  missingBehind kinds (kinds.only missing) text.toList = some (kinds.only left)

namespace Turns

variable {kinds : Brackets} {missing next left : List Char} {first second text : String}

theorem append (front : Turns kinds missing next first) (back : Turns kinds next left second) :
    Turns kinds missing left (first ++ second) := by
  rw [Turns, String.toList_append, missingBehind_append, front, Option.bind_some]
  exact back

/-- Brackets that were opened earlier do not matter. -/
theorem under (turns : Turns kinds missing left text) (below : List Char) :
    Turns kinds (missing ++ below) (left ++ below) text := by
  rw [Turns, Brackets.only, Brackets.only, List.filter_append, List.filter_append]
  exact missingBehind_below turns _

/-- A text that is written out turns brackets of any kind as it turns all of them. -/
theorem fixed (read : missingBehind .all missing text.toList = some left) :
    Turns kinds missing left text :=
  missingBehind_only read

end Turns

end Scaffold
