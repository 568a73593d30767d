import Scaffold.Go.Tokens
import Scaffold.Proofs.Go.Items
import Scaffold.Proofs.Go.Lexeme

/-! The tokens made of elements: where they stand, and what they keep when text before them grows. -/

namespace Scaffold.Go

/-- The token that an element makes at a reach, if it makes one, and the reach behind it. -/
def tokenAt (reach : Reach) : Lexeme → List Token × Reach
  | .token kind text => ([reach.token kind text], reach.behindToken kind text)
  | .comment text => ([], { reach.advance text with
      gap := reach.gap ++ text
      comments := reach.comments ++ [reach.comment text] })
  | .blank c =>
    if c == '\n' && reach.ending then
      ([reach.token .terminator [c]], reach.behindToken .terminator [c])
    else ([], { reach.advance [c] with gap := reach.gap ++ [c] })

/-- The tokens that elements make, without the one for the end of the file. -/
def tokensFrom (reach : Reach) : List Lexeme → List Token
  | [] => []
  | lexeme :: rest => (tokenAt reach lexeme).1 ++ tokensFrom (tokenAt reach lexeme).2 rest

/-- The reach behind some elements. -/
def reachBehind (reach : Reach) : List Lexeme → Reach
  | [] => reach
  | lexeme :: rest => reachBehind (tokenAt reach lexeme).2 rest

/-- One element makes its token, and the others make theirs behind it. -/
theorem placeTokens_cons (reach : Reach) (lexeme : Lexeme) (rest : List Lexeme) :
    placeTokens reach (lexeme :: rest) =
      (tokenAt reach lexeme).1 ++ placeTokens (tokenAt reach lexeme).2 rest := by
  cases lexeme with
  | token kind text => rfl
  | comment text => rfl
  | blank c =>
    rw [placeTokens, tokenAt]
    split <;> rfl

/-- Tokens are made of elements in front and of those behind. -/
theorem placeTokens_append (reach : Reach) (first second : List Lexeme) :
    placeTokens reach (first ++ second) =
      tokensFrom reach first ++ placeTokens (reachBehind reach first) second := by
  induction first generalizing reach with
  | nil => rfl
  | cons lexeme first ih =>
    rw [List.cons_append, placeTokens_cons, ih, tokensFrom, reachBehind, List.append_assoc]

theorem tokensFrom_append (reach : Reach) (first second : List Lexeme) :
    tokensFrom reach (first ++ second) =
      tokensFrom reach first ++ tokensFrom (reachBehind reach first) second := by
  induction first generalizing reach with
  | nil => rfl
  | cons lexeme first ih =>
    rw [List.cons_append, tokensFrom, ih, tokensFrom, reachBehind, List.append_assoc]

theorem reachBehind_append (reach : Reach) (first second : List Lexeme) :
    reachBehind reach (first ++ second) = reachBehind (reachBehind reach first) second := by
  induction first generalizing reach with
  | nil => rfl
  | cons lexeme first ih => rw [List.cons_append, reachBehind, ih, reachBehind]

/-- A blank character makes no token, unless it breaks a line at the end of a statement. -/
theorem tokenAt_blank (reach : Reach) (c : Char) (plain : c ≠ '\n' ∨ reach.ending = false) :
    (tokenAt reach (.blank c)).1 = [] ∧ (tokenAt reach (.blank c)).2.ending = reach.ending := by
  rw [tokenAt, if_neg (by rcases plain with other | not <;> simp [*])]
  exact ⟨rfl, rfl⟩

/-- A line break at the end of a statement makes a token. -/
theorem tokenAt_break {reach : Reach} (ends : reach.ending = true) :
    (tokenAt reach (.blank '\n')).1 = [reach.token .terminator ['\n']] ∧
      (tokenAt reach (.blank '\n')).2.ending = false := by
  rw [tokenAt, if_pos (by simp [ends])]
  exact ⟨rfl, rfl⟩

/-- An element moves the reach on by its bytes. -/
theorem tokenAt_offset (reach : Reach) (lexeme : Lexeme) :
    (tokenAt reach lexeme).2.offset = reach.offset + byteLength lexeme.chars := by
  cases lexeme with
  | token kind text => rfl
  | comment text => rfl
  | blank c =>
    rw [tokenAt]
    split <;> rfl

/-- An element moves the reach down by its line breaks. -/
theorem tokenAt_row (reach : Reach) (lexeme : Lexeme) :
    (tokenAt reach lexeme).2.row = reach.row + lexeme.chars.count '\n' := by
  cases lexeme with
  | token kind text => rfl
  | comment text => rfl
  | blank c =>
    rw [tokenAt]
    split <;> rfl

/-- A token ends where the reach behind it is. -/
theorem Reach.stop_token (reach : Reach) (kind : TokenKind) (text : List Char) :
    (reach.token kind text).stop = (reach.behindToken kind text).offset := by
  rw [Token.stop, Reach.token, String.toList_ofList]
  rfl

/-- The offset behind elements counts their bytes. -/
theorem reachBehind_offset (reach : Reach) (lexemes : List Lexeme) :
    (reachBehind reach lexemes).offset = reach.offset + byteLength (lexemeChars lexemes) := by
  induction lexemes generalizing reach with
  | nil => rfl
  | cons lexeme rest ih =>
    rw [reachBehind, ih, tokenAt_offset, lexemeChars_cons, byteLength_append, Nat.add_assoc]

/-- The row behind elements counts their line breaks. -/
theorem reachBehind_row (reach : Reach) (lexemes : List Lexeme) :
    (reachBehind reach lexemes).row = reach.row + (lexemeChars lexemes).count '\n' := by
  induction lexemes generalizing reach with
  | nil => rfl
  | cons lexeme rest ih =>
    rw [reachBehind, ih, tokenAt_row, lexemeChars_cons, List.count_append, Nat.add_assoc]

/-- An element makes at most one token, which stands at the reach and has the element's text. -/
theorem tokenAt_tokens (reach : Reach) (lexeme : Lexeme) : (tokenAt reach lexeme).1 = [] ∨
    ∃ token, (tokenAt reach lexeme).1 = [token] ∧ token.start = reach.offset ∧
      token.text = String.ofList lexeme.chars := by
  cases lexeme with
  | token kind text => exact .inr ⟨_, rfl, rfl, rfl⟩
  | comment text => exact .inl rfl
  | blank c =>
    rw [tokenAt]
    split
    · exact .inr ⟨_, rfl, rfl, rfl⟩
    · exact .inl rfl

/-- Where a token is made, the elements and the other tokens are divided. -/
theorem tokensFrom_eq_append {reach : Reach} {lexemes : List Lexeme} {front back : List Token}
    {token : Token} (made : tokensFrom reach lexemes = front ++ token :: back) :
    ∃ before lexeme after, lexemes = before ++ lexeme :: after ∧ tokensFrom reach before = front ∧
      (tokenAt (reachBehind reach before) lexeme).1 = [token] ∧
      tokensFrom (reachBehind reach (before ++ [lexeme])) after = back := by
  -- The elements in front of the token are taken one at a time.
  induction lexemes generalizing reach front with
  | nil => simp [tokensFrom] at made
  | cons lexeme rest ih =>
    rw [tokensFrom] at made
    rcases tokenAt_tokens reach lexeme with none | ⟨first, one, -, -⟩
    · rw [none, List.nil_append] at made
      obtain ⟨before, found, after, rfl, made, here, behind⟩ := ih made
      exact ⟨lexeme :: before, found, after, rfl, by rw [tokensFrom, none, List.nil_append, made],
        here, behind⟩
    · rw [one, List.singleton_append] at made
      cases front with
      | nil =>
        obtain ⟨rfl, rfl⟩ := List.cons.inj made
        exact ⟨[], lexeme, rest, rfl, rfl, one, rfl⟩
      | cons other front =>
        obtain ⟨rfl, others⟩ := List.cons.inj made
        obtain ⟨before, found, after, rfl, same, here, behind⟩ := ih others
        exact ⟨lexeme :: before, found, after, rfl, by rw [tokensFrom, one, same]; rfl, here,
          behind⟩

/-- All tokens are the ones made of elements and one for the end. -/
theorem placeTokens_eq (reach : Reach) (lexemes : List Lexeme) :
    placeTokens reach lexemes =
      tokensFrom reach lexemes ++ [(reachBehind reach lexemes).token .eof []] := by
  have whole := placeTokens_append reach lexemes []
  rwa [List.append_nil] at whole

/-- The elements that a token stands for, in front of it and behind it. -/
theorem placeTokens_eq_append {reach : Reach} {lexemes : List Lexeme} {front rest : List Token} {token : Token}
    (made : placeTokens reach lexemes = front ++ token :: rest)
    (plain : token.kind ≠ .terminator ∧ token.kind ≠ .eof) : ∃ before text behind,
      lexemes = before ++ .token token.kind text :: behind ∧ tokensFrom reach before = front ∧
      token = (reachBehind reach before).token token.kind text ∧
      rest = placeTokens ((reachBehind reach before).behindToken token.kind text) behind := by
  rw [placeTokens_eq] at made
  -- The token for the end of the file is another one.
  obtain ⟨back, tokens, rfl⟩ : ∃ back, tokensFrom reach lexemes = front ++ token :: back ∧
      rest = back ++ [(reachBehind reach lexemes).token .eof []] := by
    rcases List.eq_nil_or_concat rest with rfl | ⟨back, last, rfl⟩
    · have final := (List.append_inj' made rfl).2
      rw [← List.singleton_inj.mp final] at plain
      exact absurd rfl plain.2
    · rw [List.concat_eq_append, ← List.cons_append, ← List.append_assoc] at made
      obtain ⟨tokens, final⟩ := List.append_inj' made rfl
      exact ⟨back, tokens, by rw [List.concat_eq_append, final]⟩
  obtain ⟨before, lexeme, behind, rfl, front, here, rfl⟩ := tokensFrom_eq_append tokens
  cases lexeme with
  | comment text => cases here
  | blank c =>
    rw [tokenAt] at here
    split at here
    · cases here
      exact absurd rfl plain.1
    · cases here
  | token kind text =>
    cases here
    refine ⟨before, text, behind, rfl, front, rfl, ?_⟩
    rw [reachBehind_append, reachBehind_append]
    exact (placeTokens_eq _ behind).symm

theorem placeTokens_ne_nil (reach : Reach) (lexemes : List Lexeme) :
    placeTokens reach lexemes ≠ [] := by
  rw [placeTokens_eq]
  simp

/-- Reaches behind which the same tokens follow. -/
def Reach.Like (first second : Reach) : Prop :=
  first.ending = second.ending ∧ first.gap = second.gap

/-- Alike reaches make alike tokens of one element, and stay alike. -/
theorem tokenAt_like {first second : Reach} (like : first.Like second) (lexeme : Lexeme) :
    List.Forall₂ Token.Like (tokenAt first lexeme).1 (tokenAt second lexeme).1 ∧
      (tokenAt first lexeme).2.Like (tokenAt second lexeme).2 := by
  obtain ⟨ending, gap⟩ := like
  cases lexeme with
  | token kind text =>
    exact ⟨.cons ⟨rfl, rfl, congrArg String.ofList gap⟩ .nil, rfl, rfl⟩
  | comment text => exact ⟨.nil, ending, congrArg (· ++ text) gap⟩
  | blank c =>
    rw [tokenAt, tokenAt, ending]
    split
    · exact ⟨.cons ⟨rfl, rfl, congrArg String.ofList gap⟩ .nil, rfl, rfl⟩
    · exact ⟨.nil, ending, congrArg (· ++ [c]) gap⟩

/-- Behind alike reaches all tokens are alike. -/
theorem placeTokens_like {first second : Reach} (like : first.Like second)
    (lexemes : List Lexeme) :
    List.Forall₂ Token.Like (placeTokens first lexemes) (placeTokens second lexemes) := by
  induction lexemes generalizing first second with
  | nil => exact .cons ⟨rfl, rfl, congrArg String.ofList like.2⟩ .nil
  | cons lexeme rest ih =>
    rw [placeTokens_cons, placeTokens_cons]
    obtain ⟨one, behind⟩ := tokenAt_like like lexeme
    exact List.rel_append one (ih behind)

/--
A different gap is only seen by the first token behind it.

Reaches that both end a statement, or both do not, make alike tokens otherwise.
-/
theorem placeTokens_near {first second : Reach} (ending : first.ending = second.ending)
    (lexemes : List Lexeme) : ∃ token other rest others,
      placeTokens first lexemes = token :: rest ∧ placeTokens second lexemes = other :: others ∧
      token.Near other ∧ List.Forall₂ Token.Like rest others := by
  induction lexemes generalizing first second with
  | nil => exact ⟨_, _, [], [], rfl, rfl, ⟨rfl, rfl⟩, .nil⟩
  | cons lexeme rest ih =>
    rw [placeTokens_cons, placeTokens_cons]
    cases lexeme with
    | token kind text =>
      have behind : (first.behindToken kind text).Like (second.behindToken kind text) := ⟨rfl, rfl⟩
      exact ⟨_, _, _, _, rfl, rfl, ⟨rfl, rfl⟩, placeTokens_like behind rest⟩
    | comment text => exact ih ending
    | blank c =>
      rw [tokenAt, tokenAt, ending]
      split
      · have behind : (first.behindToken .terminator [c]).Like
            (second.behindToken .terminator [c]) := ⟨rfl, rfl⟩
        exact ⟨_, _, _, _, rfl, rfl, ⟨rfl, rfl⟩, placeTokens_like behind rest⟩
      · exact ih ending

end Scaffold.Go
