import Scaffold.Proofs.Go.Spelling
import Scaffold.Proofs.Go.TypeRuns
import Scaffold.Proofs.Go.Words

/-! An expression that is read between brackets is a length, wherever it is written again. -/

namespace Scaffold.Go

open Reading Reader

section Source

/-- The characters of some tokens, each with what stands in front of it. -/
def gappedChars (tokens : List Token) : List Char :=
  tokens.flatMap fun token => token.gap.toList ++ token.text.toList

/-- Tokens and what stands between them are the characters that they are made of. -/
theorem gappedChars_tokensFrom (reach : Reach) (lexemes : List Lexeme) :
    gappedChars (tokensFrom reach lexemes) ++ (reachBehind reach lexemes).gap =
      reach.gap ++ lexemeChars lexemes := by
  induction lexemes generalizing reach with
  | nil => simp [gappedChars, tokensFrom, reachBehind]
  | cons lexeme rest ih =>
    have others := ih (tokenAt reach lexeme).2
    rw [tokensFrom, reachBehind, gappedChars, List.flatMap_append, ← gappedChars, ← gappedChars,
      List.append_assoc, others, lexemeChars_cons, ← List.append_assoc, ← List.append_assoc]
    congr 1
    cases lexeme with
    | token kind text => simp [gappedChars, tokenAt, Reach.token, Reach.behindToken, Lexeme.chars]
    | comment text => simp [gappedChars, tokenAt, Lexeme.chars]
    | blank c =>
      rw [tokenAt]
      split <;> simp [gappedChars, Reach.token, Reach.behindToken, Lexeme.chars]

theorem sourceOf_cons (first : Token) (rest : List Token) :
    (sourceOf (first :: rest)).toList = first.text.toList ++ gappedChars rest := by
  have folded : ∀ (tokens : List Token) (start : String),
      (tokens.foldl (fun text token => text ++ token.gap ++ token.text) start).toList =
        start.toList ++ gappedChars tokens := by
    intro tokens
    induction tokens with
    | nil => simp [gappedChars]
    | cons token rest ih =>
      intro start
      rw [List.foldl_cons, ih]
      simp [gappedChars]
  rw [sourceOf, String.toList_append, folded]
  simp

/-- Elements of which the first is a token, and behind the last of which nothing is left over. -/
structure IsBody (body : List Lexeme) : Prop where
  begins : ∃ kind text rest, body = .token kind text :: rest
  ends (reach : Reach) : (reachBehind reach body).gap = []

theorem IsBody.sourceOf {body : List Lexeme} (is : IsBody body) (reach : Reach) :
    (sourceOf (tokensFrom reach body)).toList = lexemeChars body := by
  obtain ⟨kind, text, rest, rfl⟩ := is.begins
  have ends := is.ends reach
  have whole := gappedChars_tokensFrom (reach.behindToken kind text) rest
  have behind : (reachBehind (reach.behindToken kind text) rest).gap = [] := ends
  rw [behind, List.append_nil] at whole
  rw [tokensFrom_token, sourceOf_cons, whole, lexemeChars_cons]
  simp [Reach.token, Reach.behindToken, Lexeme.chars]

/-- Behind alike reaches elements make alike tokens. -/
theorem tokensFrom_like {first second : Reach} (like : first.Like second) (lexemes : List Lexeme) :
    List.Forall₂ Token.Like (tokensFrom first lexemes) (tokensFrom second lexemes) := by
  induction lexemes generalizing first second with
  | nil => exact .nil
  | cons lexeme rest ih =>
    obtain ⟨one, behind⟩ := tokenAt_like like lexeme
    exact List.rel_append one (ih behind)

/-- Wherever a body stands, its tokens are near each other. -/
theorem IsBody.near {body : List Lexeme} (is : IsBody body) (first second : Reach) :
    List.Forall₂ Token.Near (tokensFrom first body) (tokensFrom second body) := by
  obtain ⟨kind, text, rest, rfl⟩ := is.begins
  have like : (first.behindToken kind text).Like (second.behindToken kind text) := ⟨rfl, rfl⟩
  exact .cons ⟨rfl, rfl⟩ ((tokensFrom_like like rest).imp fun _ _ like => like.near)

end Source

section Refused

variable {tokens : List Token}

/-- A phrase that some tokens do not begin with, in however many steps. -/
def IsRefused (tokens : List Token) (wanted : Phrase) : Prop :=
  ∀ limit, phraseWithin limit wanted tokens = none

namespace IsRefused

theorem all {part : Phrase} {rest : List Phrase} (refused : IsRefused tokens part) :
    IsRefused tokens (.all (part :: rest)) := by
  intro limit
  cases limit with
  | zero => rfl
  | succ limit => exact bind_of_none (refused limit)

theorem first {choices : List Phrase} (refused : ∀ choice ∈ choices, IsRefused tokens choice) :
    IsRefused tokens (.first choices) := by
  intro limit
  induction choices generalizing limit with
  | nil => cases limit <;> rfl
  | cons choice rest ih =>
    obtain ⟨one, others⟩ := List.forall_mem_cons.mp refused
    cases limit with
    | zero => rfl
    | succ limit => exact (either_of_none (one limit)).trans (ih others limit)

theorem rule {name : Rule} (refused : IsRefused tokens name.phrase) :
    IsRefused tokens (.rule name) := by
  intro limit
  cases limit with
  | zero => rfl
  | succ limit => exact refused limit

end IsRefused

variable {token : Token} {rest : List Token}

/-- No expression begins with the end of a statement. -/
theorem expression_refused (ended : token.kind = .terminator) (braces : Bool) :
    IsRefused (token :: rest) (.rule (.expression braces)) := by
  have unmarked : ∀ text, token.isMark text = false :=
    Token.isMark_eq_false (by simp [ended]) (by simp [ended])
  have discarded : ∀ {α : Type} {reader : Reader α}, reader (token :: rest) = none →
      Functor.discard reader (token :: rest) = none := fun {_ reader} fails => by
    show (Function.const _ PUnit.unit <$> reader) (token :: rest) = none
    rw [map_run, fails, Option.map_none]
  have mark : ∀ text, IsRefused (token :: rest) (.mark text) := by
    intro text limit
    cases limit with
    | zero => rfl
    | succ limit => exact discarded (mark_of_not (unmarked text) rest)
  have oneOf : ∀ texts, IsRefused (token :: rest) (.oneOf texts) := by
    intro texts limit
    have fails : texts.any token.isMark = false := by simp [unmarked]
    cases limit with
    | zero => rfl
    | succ limit => exact discarded (one_cons_of_false fails rest)
  have ahead : ∀ text, IsRefused (token :: rest) (.ahead text) := by
    intro text limit
    cases limit with
    | zero => rfl
    | succ limit => exact ahead_of_not (by simp [unmarked]) rest
  have word : IsRefused (token :: rest) .word := by
    intro limit
    cases limit with
    | zero => rfl
    | succ limit =>
      have other : token.kind ≠ .word := by simp [ended]
      exact discarded (word_of_not other rest)
  have number : IsRefused (token :: rest) .number := by
    intro limit
    have fails : [TokenKind.number, .rune, .text].contains token.kind = false := by
      rw [ended]
      rfl
    cases limit with
    | zero => rfl
    | succ limit => exact discarded (one_cons_of_false fails rest)
  have value : IsRefused (token :: rest) (.rule (.value braces)) := by
    refine .rule (.first ?_)
    simp only [List.forall_mem_cons]
    refine ⟨.all word, number, .all (mark _), .all (ahead _), .all (mark _), .all (.first ?_), by simp⟩
    simp only [List.forall_mem_cons]
    exact ⟨ahead _, ahead _, ahead _, ahead _, ahead _, by simp⟩
  refine .rule (.all (.rule (.first ?_)))
  simp only [List.forall_mem_cons]
  exact ⟨.all (ahead _), .all (oneOf _), .all value, by simp⟩

end Refused

section Read

/-- Elements that stand alike to what makes them end leave alike reaches behind. -/
theorem reachBehind_like {first second : Reach} (like : first.Like second) (lexemes : List Lexeme) :
    (reachBehind first lexemes).Like (reachBehind second lexemes) := by
  induction lexemes generalizing first second with
  | nil => exact like
  | cons lexeme rest ih => exact ih (tokenAt_like like lexeme).2

/-- An element that makes a token is no comment, and leaves nothing over behind it. -/
theorem gap_of_tokenAt {reach : Reach} {lexeme : Lexeme} {token : Token}
    (made : (tokenAt reach lexeme).1 = [token]) :
    (tokenAt reach lexeme).2.gap = [] ∧ ∀ text, lexeme ≠ .comment text := by
  cases lexeme with
  | token kind text => exact ⟨rfl, by simp⟩
  | comment text => cases made
  | blank c =>
    rw [tokenAt] at made ⊢
    split at made
    case isTrue ends =>
      rw [if_pos ends]
      exact ⟨rfl, by simp⟩
    case isFalse => cases made

/-- Behind a body that begins with a token, nothing is left over if nothing is behind one reach. -/
theorem IsBody.of_reach {kind : TokenKind} {text : List Char} {rest : List Lexeme} {reach : Reach}
    (ends : (reachBehind reach (.token kind text :: rest)).gap = []) :
    IsBody (.token kind text :: rest) where
  begins := ⟨kind, text, rest, rfl⟩
  ends other := by
    have like : (other.behindToken kind text).Like (reach.behindToken kind text) := ⟨rfl, rfl⟩
    exact (reachBehind_like like rest).2.trans ends

/-- Of the elements that tokens are made of, those from the first token to the last are a body. -/
theorem exists_isBody {reach : Reach} {lexemes : List Lexeme} {tokens : List Token}
    (made : tokensFrom reach lexemes = tokens) (some : tokens ≠ [])
    (plain : ∀ token ∈ tokens.head?, token.kind ≠ .terminator) :
    ∃ front body back between, lexemes = front ++ (body ++ back) ∧ IsBody body ∧
      tokensFrom between body = tokens ∧ ∀ text, body.getLast? ≠ .some (.comment text) := by
  obtain ⟨first, others, rfl⟩ := List.exists_cons_of_ne_nil some
  have whole : tokensFrom reach lexemes = [] ++ first :: others := made
  obtain ⟨front, lead, behind, rfl, before, begun, -⟩ := tokensFrom_eq_append whole
  obtain ⟨kind, text, rfl⟩ : ∃ kind text, lead = .token kind text := by
    cases lead with
    | token kind text => exact ⟨kind, text, rfl⟩
    | comment text => cases begun
    | blank c =>
      rw [tokenAt] at begun
      split at begun <;> cases begun
      exact absurd rfl (plain _ rfl)
  rw [tokensFrom_append, before, List.nil_append] at made
  -- What is behind the element of the last token is cut off.
  obtain ⟨inner, last, ends⟩ := (List.eq_nil_or_concat (first :: others)).resolve_left some
  rw [List.concat_eq_append] at ends
  obtain ⟨body, final, back, same, inside, ended, after⟩ :=
    tokensFrom_eq_append (made.trans ends)
  obtain ⟨gap, uncommented⟩ := gap_of_tokenAt ended
  have split : Lexeme.token kind text :: behind = (body ++ [final]) ++ back := by simp [same]
  refine ⟨front, body ++ [final], back, reachBehind reach front, by rw [← split], ?_, ?_, ?_⟩
  · obtain ⟨tail, begins⟩ : ∃ tail, body ++ [final] = .token kind text :: tail := by
      cases body with
      | nil => exact ⟨[], by rw [(List.cons.inj same).1, List.nil_append]⟩
      | cons lead body => exact ⟨body ++ [final], by rw [(List.cons.inj same).1, List.cons_append]⟩
    have ends : (reachBehind (reachBehind reach front) (body ++ [final])).gap = [] := by
      rw [reachBehind_append]
      exact gap
    rw [begins] at ends ⊢
    exact .of_reach ends
  · rw [tokensFrom_append, inside, ends, tokensFrom, ended, tokensFrom, List.append_nil]
  · intro text
    rw [List.getLast?_concat]
    exact fun is => uncommented text (Option.some.inj is)

/-- The length of an array is spelled with the elements that it has in front of a bracket. -/
theorem lengthLexemes_eq {body : List Lexeme}
    (lexes : Lexes (lexemeChars body ++ [']']) body [']']) :
    lengthLexemes (String.ofList (lexemeChars body)) = body := by
  have closing : (allLexemes [']']).1 = [markLexeme "]"] := rfl
  rw [lengthLexemes, String.toList_ofList, lexes.allLexemes, closing]
  exact List.dropLast_concat

/-- A body that is read as an expression in front of a bracket is a length. -/
theorem IsBody.isLength {body : List Lexeme} (is : IsBody body) {text after : List Char}
    (lexes : Lexes text body after) (uncommented : ∀ text, body.getLast? ≠ some (.comment text))
    {reach : Reach} (other : ∀ token ∈ (tokensFrom reach body).head?, token.isMark "]" = false)
    {closing bar : Token} {rest back : List Token}
    (mark : closing.kind = .mark ∧ closing.text = "]") (barred : bar.isBar = true)
    (read : phrase (.rule (.expression true)) (tokensFrom reach body ++
      closing :: (rest ++ bar :: back)) = some ((), closing :: (rest ++ bar :: back))) :
    IsLength (String.ofList (lexemeChars body)) := by
  have again (rest : List Char) : Lexes (lexemeChars body ++ ']' :: rest) body (']' :: rest) :=
    lexes.seam ⟨[], after, ']' :: rest, rfl, rfl, .inl ⟨']', by simp [seamMarks], rfl⟩⟩
      fun _ => .inr uncommented
  have same := lengthLexemes_eq (again [])
  refine ⟨fun rest => ?_, fun reach => ?_, fun elsewhere => ?_, fun elsewhere behind rest' => ?_⟩
  · rw [same, String.toList_ofList]
    exact again rest
  · rw [same, ← is.sourceOf reach, String.ofList_toList]
  · rw [same]
    obtain ⟨kind, text, others, rfl⟩ := is.begins
    exact ⟨_, _, tokensFrom_token elsewhere kind text others, other (reach.token kind text) rfl⟩
  · rw [same]
    have closes : closing.isMark "]" = true := by simp [Token.isMark, mark]
    have taken : phrase (.rule (.expression true)) (tokensFrom reach body ++
        ((closing :: rest) ++ bar :: back)) = some ((), (closing :: rest) ++ bar :: back) := read
    have balanced := depthBehind_of_expression barred taken 0
    have near := is.near reach elsewhere
    have same : closing.Near (behind.token .mark "]".toList) := ⟨mark.1, by rw [mark.2]; rfl⟩
    -- The tokens look the same wherever they stand, up to the bracket that they do not open.
    have agree : AgreeWithin 0 (tokensFrom reach body).length
        (tokensFrom reach body ++ closing :: (rest ++ bar :: back))
        (tokensFrom elsewhere body ++ behind.token .mark "]".toList :: rest') :=
      agreeWithin_of_balanced near same balanced (depth_of_closing (by decide) closes)
    rcases phrase_alike (.expression true) _ _ agree with
      ⟨failed, -⟩ | ⟨_, _, taken, one, other, -, -, high, -⟩
    · exact absurd (read.symm.trans failed) (by simp)
    · have left := congrArg List.length (Prod.mk.inj (Option.some.inj (read.symm.trans one))).2
      simp only [List.length_drop, List.length_append, List.length_cons] at left
      have all : taken = (tokensFrom elsewhere body).length := by
        rw [← near.length_eq]
        omega
      rw [other, all, List.drop_left]

/-- A bracket that is a token of a text is a mark. -/
theorem kind_of_bracket {text after chars : List Char} {kind : TokenKind} {rest : List Lexeme}
    (lexes : Lexes text (.token kind chars :: rest) after) (closes : chars = [']']) :
    kind = .mark := by
  subst closes
  cases lexes with
  | @cons c others between _ _ _ first _ =>
    obtain ⟨taken, same, rfl⟩ := nextLexeme_split first
    obtain ⟨rfl, rfl⟩ := List.cons.inj same
    have read : nextLexeme ']' between = some (.token .mark [']'], between) := rfl
    cases first.symm.trans read
    rfl

/-- What is read as an expression stands in front of the rest, and begins like an expression. -/
theorem expression_split {tokens rest : List Token} (closed : Closed tokens)
    (read : phrase (.rule (.expression true)) tokens = some ((), rest)) :
    ∃ first others, tokens = first :: (others ++ rest) ∧ first.kind ≠ .terminator := by
  obtain ⟨count, last, agree, -⟩ := closed.agree
  rcases Alike.upTo (fun _ => phrase_alike (.expression true)) agree with
    ⟨failed, -⟩ | ⟨_, _, taken, one, -, -, low, high⟩
  · exact absurd (read.symm.trans failed) (by simp)
  · have left := (Prod.mk.inj (Option.some.inj (read.symm.trans one))).2
    have least : (Phrase.rule (.expression true)).least = 1 := rfl
    rw [least] at low
    cases tokens with
    | nil => exact absurd agree.lt_length.1 (by simp)
    | cons first more =>
      obtain ⟨taken, rfl⟩ : ∃ less, taken = less + 1 := ⟨taken - 1, by omega⟩
      refine ⟨first, more.take taken, ?_, fun ended => ?_⟩
      · rw [left, List.drop_succ_cons, List.take_append_drop]
      · have refused : IsRefused (first :: more) (.rule (.expression true)) :=
          expression_refused ended true
        exact absurd (read.symm.trans (refused (100 * (first :: more).length))) (by simp)

/-- What is read between the brackets of an array is a length. -/
theorem isLength_of_read {tokens taken rest : List Token} (worded : IsWorded tokens)
    (opened : mark "]" tokens = none)
    (read : withTaken (phrase (.rule (.expression true))) tokens = some (((), taken), rest))
    (closed : (mark "]" rest).isSome = true) : IsLength (sourceOf taken) := by
  rw [withTaken_run] at read
  obtain ⟨⟨⟨⟩, left⟩, run, same⟩ := Option.map_eq_some_iff.mp read
  cases same
  obtain ⟨first, others, rfl, begins⟩ := expression_split worded.closed run
  obtain ⟨⟨closing, more⟩, found⟩ := Option.isSome_iff_exists.mp closed
  obtain ⟨rfl, closes⟩ := one_eq_some.mp found
  have whole : Closed ((first :: others) ++ closing :: more) := worded.closed
  obtain ⟨rest, last, ends, eof, -⟩ := whole.of_append (List.cons_ne_nil closing more)
  -- The bracket does not end the text, so there is an end behind it.
  obtain ⟨rest, rfl⟩ : ∃ inside, more = inside ++ [last] := by
    cases rest with
    | nil =>
      rw [(List.cons.inj ends).1, Token.isMark_eq_false (by simp [eof]) (by simp [eof])] at closes
      cases closes
    | cons _ rest => exact ⟨rest, (List.cons.inj ends).2⟩
  have taken : (first :: (others ++ closing :: (rest ++ [last]))).take
      ((first :: (others ++ closing :: (rest ++ [last]))).length -
        (closing :: (rest ++ [last])).length) = first :: others := by
    rw [← List.cons_append, List.length_append, Nat.add_sub_cancel, List.take_left]
  rw [taken]
  obtain ⟨text, lexemes, after, reach, lexes, made⟩ := worded.made
  have made : placeTokens reach lexemes = (first :: others) ++ closing :: (rest ++ [last]) := made.symm
  obtain ⟨before, chars, behind, rfl, tokens, same, -⟩ :=
    placeTokens_eq_append made (Token.plain_of_isMark closes)
  obtain ⟨front, body, back, between, rfl, isBody, inside, uncommented⟩ :=
    exists_isBody tokens (by simp) (by simpa using begins)
  -- The elements of the body, and the one for the bracket, are elements of the text.
  obtain ⟨_, ahead, bracket⟩ := lexes.split
  obtain ⟨_, -, ahead⟩ := ahead.split
  obtain ⟨_, bodied, -⟩ := ahead.split
  have text : closing.text = "]" := by
    simp only [Token.isMark, Bool.and_eq_true, beq_iff_eq] at closes
    exact closes.2
  have mark : closing.kind = .mark := by
    refine kind_of_bracket bracket ?_
    rw [same] at text
    exact String.ofList_inj.mp text
  have source : sourceOf (first :: others) = String.ofList (lexemeChars body) := by
    rw [← inside, ← isBody.sourceOf between, String.ofList_toList]
  have barred : last.isBar = true := by simp [Token.isBar, eof]
  have other : ∀ token ∈ (tokensFrom between body).head?, token.isMark "]" = false := by
    rw [inside]
    rintro token ⟨⟩
    by_contra is
    rw [mark_of_isMark (eq_true_of_ne_false is)] at opened
    cases opened
  rw [← List.cons_append, ← inside] at run
  rw [source]
  exact isBody.isLength bodied uncommented other ⟨mark, text⟩ barred run

end Read

end Scaffold.Go
