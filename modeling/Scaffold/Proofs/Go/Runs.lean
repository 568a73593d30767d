import Scaffold.Proofs.Go.Meaning
import Scaffold.Proofs.Go.Reader
import Scaffold.Proofs.Go.Tokens

/-! What readers do with the tokens of some elements, in front of what stops them. -/

namespace Scaffold.Go

open Reading Reader

section Runs

variable {α β : Type} {reader other : Reader α} {next : α → Reader β} {value : α}
  {tokens rest : List Token}

/-- What is read first leaves the rest to what is read next. -/
theorem bind_of_run (first : reader tokens = some (value, rest)) :
    (reader >>= next) tokens = next value rest := by
  rw [bind_run, first, Option.bind_some]

theorem bind_of_none (first : reader tokens = none) : (reader >>= next) tokens = none := by
  rw [bind_run, first, Option.bind_none]

theorem maybe_of_run (first : reader tokens = some (value, rest)) :
    maybe reader tokens = some (some value, rest) := by
  rw [maybe_run, first]

theorem maybe_of_none (fails : reader tokens = none) : maybe reader tokens = some (none, tokens) := by
  rw [maybe_run, fails]

theorem either_of_run {result : α × List Token} (first : reader tokens = some result) :
    either reader other tokens = some result := by
  rw [either_run, first, Option.some_or]

theorem either_of_none (fails : reader tokens = none) :
    either reader other tokens = other tokens := by
  rw [either_run, fails, Option.none_or]

theorem seqRight_of_run {more : Reader β} (first : reader tokens = some (value, rest)) :
    (reader *> more) tokens = more rest :=
  show (reader >>= fun _ => more) tokens = more rest from bind_of_run first

theorem seqRight_of_none {more : Reader β} (fails : reader tokens = none) :
    (reader *> more) tokens = none :=
  show (reader >>= fun _ => more) tokens = none from bind_of_none fails

theorem withTaken_of_run {taken : List Token} (run : reader (taken ++ rest) = some (value, rest)) :
    withTaken reader (taken ++ rest) = some ((value, taken), rest) := by
  rw [withTaken_run, run, Option.map_some]
  simp

variable {token : Token} {text : String}

theorem mark_of_isMark (is : token.isMark text = true) (rest : List Token) :
    mark text (token :: rest) = some (token, rest) :=
  one_cons_of_true is rest

theorem mark_of_not (is : token.isMark text = false) (rest : List Token) :
    mark text (token :: rest) = none :=
  one_cons_of_false is rest

theorem ahead_of_isMark {texts : List String} (is : texts.any token.isMark = true) (rest : List Token) :
    ahead texts (token :: rest) = some ((), token :: rest) := by
  rw [ahead, bind_of_run (next_cons token rest), is]
  rfl

theorem ahead_of_not {texts : List String} (is : texts.any token.isMark = false) (rest : List Token) :
    ahead texts (token :: rest) = none := by
  rw [ahead, bind_of_run (next_cons token rest), is]
  rfl

theorem word_of_kind (is : token.kind = .word) (rest : List Token) :
    word (token :: rest) = some (token, rest) :=
  one_cons_of_true (by simp [is]) rest

theorem word_of_not (is : token.kind ≠ .word) (rest : List Token) : word (token :: rest) = none :=
  one_cons_of_false (by simp [is]) rest

/-- As often as a reader succeeds in turn, it is repeated, until it fails. -/
theorem many_of_none (fails : reader tokens = none) : many reader tokens = some ([], tokens) := by
  rw [many_run]
  cases tokens with
  | nil => rfl
  | cons token rest => rw [List.length_cons, manyWithin_succ_run, fails]

end Runs

section Made

@[simp] theorem tokensFrom_nil (reach : Reach) : tokensFrom reach [] = [] := rfl

@[simp] theorem tokensFrom_token (reach : Reach) (kind : TokenKind) (text : List Char)
    (rest : List Lexeme) : tokensFrom reach (.token kind text :: rest) =
      reach.token kind text :: tokensFrom (reach.behindToken kind text) rest := rfl

@[simp] theorem tokensFrom_space (reach : Reach) (rest : List Lexeme) :
    tokensFrom reach (.blank ' ' :: rest) = tokensFrom (tokenAt reach (.blank ' ')).2 rest := rfl

@[simp] theorem kind_token (reach : Reach) (kind : TokenKind) (text : List Char) :
    (reach.token kind text).kind = kind := rfl

@[simp] theorem isMark_mark (reach : Reach) (text other : String) :
    (reach.token .mark text.toList).isMark other = (text == other) := by
  simp [Token.isMark, Reach.token]

@[simp] theorem isMark_keyword (reach : Reach) (text other : String) :
    (reach.token .keyword text.toList).isMark other = (text == other) := by
  simp [Token.isMark, Reach.token]

@[simp] theorem isMark_word (reach : Reach) (text : List Char) (other : String) :
    (reach.token .word text).isMark other = false := rfl

@[simp] theorem isMark_terminator (reach : Reach) (text : List Char) (other : String) :
    (reach.token .terminator text).isMark other = false := rfl

/-- A mark is no other. -/
theorem isMark_other {text other : String} (apart : text ≠ other) (reach : Reach) :
    (reach.token .mark text.toList).isMark other = false := by
  rw [isMark_mark]
  exact beq_false_of_ne apart

/-- How many of some elements are tokens by themselves. -/
def tokenCount : List Lexeme → Nat
  | [] => 0
  | .token _ _ :: rest => tokenCount rest + 1
  | .comment _ :: rest | .blank _ :: rest => tokenCount rest

@[simp] theorem tokenCount_mark (text : String) (rest : List Lexeme) :
    tokenCount (markLexeme text :: rest) = tokenCount rest + 1 := rfl

@[simp] theorem tokenCount_keyword (text : String) (rest : List Lexeme) :
    tokenCount (keywordLexeme text :: rest) = tokenCount rest + 1 := rfl

@[simp] theorem tokenCount_name (text : String) (rest : List Lexeme) :
    tokenCount (nameLexeme text :: rest) = tokenCount rest + 1 := rfl

@[simp] theorem tokenCount_blank (c : Char) (rest : List Lexeme) :
    tokenCount (.blank c :: rest) = tokenCount rest := rfl

@[simp] theorem tokenCount_append (first second : List Lexeme) :
    tokenCount (first ++ second) = tokenCount first + tokenCount second := by
  induction first with
  | nil => simp [tokenCount]
  | cons lexeme rest ih =>
    cases lexeme with
    | token kind text =>
      rw [List.cons_append, tokenCount, tokenCount, ih]
      omega
    | comment text | blank c => rw [List.cons_append, tokenCount, tokenCount, ih]

/-- Each of them makes a token. -/
theorem tokenCount_le_length (reach : Reach) (lexemes : List Lexeme) :
    tokenCount lexemes ≤ (tokensFrom reach lexemes).length := by
  induction lexemes generalizing reach with
  | nil => simp [tokenCount]
  | cons lexeme rest ih =>
    have others := ih (tokenAt reach lexeme).2
    rw [tokensFrom, List.length_append]
    cases lexeme with
    | token kind text =>
      have one : (tokenAt reach (.token kind text)).1.length = 1 := rfl
      rw [tokenCount, one]
      omega
    | comment text | blank c =>
      rw [tokenCount]
      omega

end Made

section Lists

variable {α β σ : Type} {stops : Token → Prop} {reader : Reader α} {related : α → β → Prop}

/-- What some elements are read as, in front of whatever stops the reader. -/
def IsReadAs (stops : Token → Prop) (reader : Reader α) (lexemes : List Lexeme)
    (good : α → Prop) : Prop :=
  ∀ reach stop rest, stops stop → ∃ value,
    reader (tokensFrom reach lexemes ++ stop :: rest) = some (value, stop :: rest) ∧ good value

variable {separator : Reader σ} {kind : TokenKind} {text : List Char} {lists : List (List Lexeme)}
  {means : List β} {stop : Token}

/-- Further elements of a list, each behind a separator. -/
def furtherLexemes (divider : Lexeme) (lists : List (List Lexeme)) : List Lexeme :=
  lists.flatMap fun next => divider :: .blank ' ' :: next

theorem tokensFrom_further (reach : Reach) (kind : TokenKind) (text : List Char)
    (first : List Lexeme) (rest : List (List Lexeme)) : ∃ between behind,
    tokensFrom reach (furtherLexemes (.token kind text) (first :: rest)) =
      reach.token kind text :: (tokensFrom between first ++
        tokensFrom behind (furtherLexemes (.token kind text) rest)) := by
  let between := (tokenAt (reach.behindToken kind text) (.blank ' ')).2
  refine ⟨between, reachBehind between first, ?_⟩
  rw [furtherLexemes, List.flatMap_cons, List.cons_append, List.cons_append, tokensFrom_token,
    tokensFrom_space, tokensFrom_append]
  rfl

/-- Every further element has its separator as a token. -/
theorem length_le_further (reach : Reach) (kind : TokenKind) (text : List Char)
    (lists : List (List Lexeme)) :
    lists.length ≤ (tokensFrom reach (furtherLexemes (.token kind text) lists)).length := by
  induction lists generalizing reach with
  | nil => simp
  | cons first rest ih =>
    obtain ⟨between, behind, made⟩ := tokensFrom_further reach kind text first rest
    have others := ih behind
    rw [made]
    simp only [List.length_cons, List.length_append]
    omega

/-- What stands behind an element of a list stops it: a separator, or what stops the list. -/
theorem exists_stopper (lists : List (List Lexeme)) (divider : ∀ reach : Reach,
    stops (reach.token kind text)) (stopped : stops stop) (reach : Reach) (rest : List Token) :
    ∃ stopper others, tokensFrom reach (furtherLexemes (.token kind text) lists) ++ stop :: rest =
      stopper :: others ∧ stops stopper := by
  cases lists with
  | nil => exact ⟨stop, rest, rfl, stopped⟩
  | cons first lists =>
    obtain ⟨_, _, made⟩ := tokensFrom_further reach kind text first lists
    rw [made]
    exact ⟨_, _, rfl, divider reach⟩

/-- Further elements are read one by one, up to what is no separator. -/
theorem further_reads
    (each : List.Forall₂ (fun list meaning => IsReadAs stops reader list (related · meaning)) lists means)
    (divides : ∀ (reach : Reach) rest, ∃ found,
      separator (reach.token kind text :: rest) = some (found, rest))
    (divider : ∀ reach : Reach, stops (reach.token kind text)) (stopped : stops stop)
    (last : ∀ rest, separator (stop :: rest) = none) (reach : Reach) (rest : List Token) :
    ∃ values, many (separator *> reader)
        (tokensFrom reach (furtherLexemes (.token kind text) lists) ++ stop :: rest) =
          some (values, stop :: rest) ∧ List.Forall₂ related values means := by
  have within : ∀ limit, lists.length < limit → ∃ values,
      manyWithin (separator *> reader) limit
        (tokensFrom reach (furtherLexemes (.token kind text) lists) ++ stop :: rest) =
          some (values, stop :: rest) ∧ List.Forall₂ related values means := by
    -- One round for each element, and one that finds no separator.
    induction each generalizing reach with
    | nil =>
      intro limit enough
      obtain ⟨limit, rfl⟩ : ∃ less, limit = less + 1 := ⟨limit - 1, by omega⟩
      refine ⟨[], ?_, .nil⟩
      rw [manyWithin_succ_run, furtherLexemes, List.flatMap_nil, tokensFrom_nil, List.nil_append,
        seqRight_of_none (last rest)]
    | @cons list meaning lists means first _ ih =>
      intro limit enough
      obtain ⟨limit, rfl⟩ : ∃ less, limit = less + 1 := ⟨limit - 1, by simp at enough; omega⟩
      obtain ⟨between, behind, made⟩ := tokensFrom_further reach kind text list lists
      obtain ⟨stopper, others, same, stopping⟩ := exists_stopper lists divider stopped behind rest
      obtain ⟨value, read, good⟩ := first between stopper others stopping
      obtain ⟨found, divided⟩ := divides reach (tokensFrom between list ++ stopper :: others)
      obtain ⟨values, run, all⟩ := ih behind limit (by simp at enough; omega)
      refine ⟨value :: values, ?_, .cons good all⟩
      rw [manyWithin_succ_run, made, List.cons_append, List.append_assoc, same,
        seqRight_of_run divided, read]
      simp only
      rw [← same, run, Option.map_some]
  refine within _ ?_
  have long := length_le_further reach kind text lists
  simp only [List.length_append, List.length_cons]
  omega

/-- Elements with separators between them are read one by one. -/
theorem separatedBy_reads {first : List Lexeme} {meaning : β}
    (one : IsReadAs stops reader first (related · meaning))
    (each : List.Forall₂ (fun list meaning => IsReadAs stops reader list (related · meaning)) lists means)
    (divides : ∀ (reach : Reach) rest, ∃ found,
      separator (reach.token kind text :: rest) = some (found, rest))
    (divider : ∀ reach : Reach, stops (reach.token kind text)) (stopped : stops stop)
    (last : ∀ rest, separator (stop :: rest) = none) (reach : Reach) (rest : List Token) :
    ∃ values, separatedBy separator reader
        (tokensFrom reach (separated (.token kind text) (first :: lists)) ++ stop :: rest) =
          some (values, stop :: rest) ∧ List.Forall₂ related values (meaning :: means) := by
  obtain ⟨stopper, others, same, stopping⟩ :=
    exists_stopper lists divider stopped (reachBehind reach first) rest
  obtain ⟨value, read, good⟩ := one reach stopper others stopping
  obtain ⟨values, run, all⟩ :=
    further_reads each divides divider stopped last (reachBehind reach first) rest
  refine ⟨value :: values, ?_, .cons good all⟩
  rw [separated, tokensFrom_append, List.append_assoc]
  have behind : tokensFrom (reachBehind reach first)
      (lists.flatMap fun next => .token kind text :: .blank ' ' :: next) ++ stop :: rest =
        stopper :: others := same
  rw [separatedBy, behind, bind_of_run read, ← same, bind_of_run run]
  rfl

end Lists

end Scaffold.Go
