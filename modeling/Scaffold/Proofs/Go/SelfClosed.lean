import Scaffold.Go.Lexeme

/-! Comments and literals that end with their closing mark, whatever follows it. -/

namespace Scaffold.Go

/-- A reader whose results depend on nothing behind what it takes. -/
def SelfClosed (reader : List Char → Option (List Char × List Char)) : Prop :=
  ∀ {text taken left : List Char}, reader text = some (taken, left) →
    text = taken ++ left ∧ ∀ other, reader (taken ++ other) = some (taken, other)

private theorem blockComment_ne_nil {text left : List Char} :
    blockComment text ≠ some ([], left) := by
  unfold blockComment
  split <;> simp

theorem selfClosed_blockComment : SelfClosed blockComment := by
  intro text
  -- The comment goes on until its first closing mark.
  induction text using blockComment.induct with
  | case1 rest =>
    intro taken left read
    cases read
    exact ⟨rfl, fun _ => rfl⟩
  | case2 c rest notClosing ih =>
    intro taken left read
    rw [blockComment] at read
    · obtain ⟨⟨inner, after⟩, found, same⟩ := Option.map_eq_some_iff.mp read
      cases same
      obtain ⟨rfl, again⟩ := ih found
      refine ⟨rfl, fun other => ?_⟩
      rw [List.cons_append, blockComment, again other]
      · rfl
      · intro more star slash
        cases inner with
        | nil => exact blockComment_ne_nil found
        | cons d inner =>
          cases slash
          exact notClosing _ star rfl
    · exact notClosing
  | case3 =>
    intro taken left read
    cases read

theorem selfClosed_rawText : SelfClosed rawText := by
  intro text
  induction text with
  | nil =>
    intro taken left read
    cases read
  | cons c rest ih =>
    intro taken left read
    rw [rawText] at read
    split at read <;> rename_i is
    · cases read
      exact ⟨rfl, fun other => by rw [List.singleton_append, rawText, if_pos is]⟩
    · obtain ⟨⟨inner, after⟩, found, same⟩ := Option.map_eq_some_iff.mp read
      cases same
      obtain ⟨rfl, again⟩ := ih found
      refine ⟨rfl, fun other => ?_⟩
      rw [List.cons_append, rawText, if_neg is, again other, Option.map_some]

/-- An escape that fits needs nothing behind the closing quote. -/
private theorem escapeFits_append {c : Char} {text left : List Char}
    (fits : escapeFits c (text ++ left) = true) (closed : '"' ∈ text) (other : List Char) :
    escapeFits c (text ++ other) = true := by
  -- A quote is no digit, so all digits of the escape come before it.
  have digits : ∀ count, ((text ++ left).take count).length == count &&
      ((text ++ left).take count).all isHexDigit →
      ((text ++ other).take count).length == count &&
        ((text ++ other).take count).all isHexDigit := by
    intro count hex
    rcases Nat.lt_or_ge text.length count with short | enough
    · rw [List.take_append, List.take_of_length_le (by omega)] at hex
      simp only [Bool.and_eq_true, List.all_eq_true] at hex
      exact absurd (hex.2 '"' (List.mem_append_left _ closed)) (by decide)
    · rw [List.take_append_of_le_length enough] at hex ⊢
      exact hex
  unfold escapeFits at fits ⊢
  split <;> rename_i isByte
  · rw [if_pos isByte] at fits
    exact digits 2 fits
  · rw [if_neg isByte] at fits
    split <;> rename_i isShort
    · rw [if_pos isShort] at fits
      exact digits 4 fits
    · rw [if_neg isShort] at fits
      split <;> rename_i isLong
      · rw [if_pos isLong] at fits
        exact digits 8 fits
      · rfl

private theorem quote_mem_interpretedText {text taken left : List Char}
    (read : interpretedText text = some (taken, left)) : '"' ∈ taken := by
  induction text using interpretedText.induct generalizing taken with
  | case1 => cases read
  | case2 c rest fits ih =>
    rw [interpretedText, if_pos fits] at read
    obtain ⟨⟨inner, after⟩, found, same⟩ := Option.map_eq_some_iff.mp read
    cases same
    simp [ih found]
  | case3 c rest unfit =>
    rw [interpretedText, if_neg unfit] at read
    cases read
  | case4 c rest notEscape is =>
    rw [interpretedText, if_pos is] at read
    · cases read
      rw [eq_of_beq is]
      exact List.mem_singleton_self _
    · exact notEscape
  | case5 c rest notEscape isNot broken =>
    rw [interpretedText, if_neg isNot, if_pos broken] at read
    · cases read
    · exact notEscape
  | case6 c rest notEscape isNot unbroken ih =>
    rw [interpretedText, if_neg isNot, if_neg unbroken] at read
    · obtain ⟨⟨inner, after⟩, found, same⟩ := Option.map_eq_some_iff.mp read
      cases same
      exact List.mem_cons_of_mem _ (ih found)
    · exact notEscape

theorem selfClosed_interpretedText : SelfClosed interpretedText := by
  intro text
  induction text using interpretedText.induct with
  | case1 =>
    intro taken left read
    cases read
  | case2 c rest fits ih =>
    intro taken left read
    rw [interpretedText, if_pos fits] at read
    obtain ⟨⟨inner, after⟩, found, same⟩ := Option.map_eq_some_iff.mp read
    cases same
    obtain ⟨rfl, again⟩ := ih found
    refine ⟨rfl, fun other => ?_⟩
    have still := escapeFits_append fits (quote_mem_interpretedText found) other
    rw [List.cons_append, List.cons_append, interpretedText, if_pos still, again other]
    rfl
  | case3 c rest unfit =>
    intro taken left read
    rw [interpretedText, if_neg unfit] at read
    cases read
  | case4 c rest notEscape is =>
    intro taken left read
    rw [interpretedText, if_pos is] at read
    · cases read
      refine ⟨rfl, fun other => ?_⟩
      rw [List.singleton_append, interpretedText, if_pos is]
      intro d more escape
      simp_all
    · exact notEscape
  | case5 c rest notEscape isNot broken =>
    intro taken left read
    rw [interpretedText, if_neg isNot, if_pos broken] at read
    · cases read
    · exact notEscape
  | case6 c rest notEscape isNot unbroken ih =>
    intro taken left read
    rw [interpretedText, if_neg isNot, if_neg unbroken] at read
    · obtain ⟨⟨inner, after⟩, found, same⟩ := Option.map_eq_some_iff.mp read
      cases same
      obtain ⟨rfl, again⟩ := ih found
      refine ⟨rfl, fun other => ?_⟩
      rw [List.cons_append, interpretedText, if_neg isNot, if_neg unbroken, again other]
      · rfl
      · intro d more escape
        simp_all
    · exact notEscape

/-- The number of digits behind the first character of an escape between single quotes. -/
private def runeDigits (c : Char) : Option Nat :=
  if '0' ≤ c && c ≤ '7' then some 2 else escapeDigits c

private theorem runeText_escape (c : Char) (rest : List Char) :
    runeText ('\\' :: c :: rest) = match runeDigits c with
      | none => none
      | some count =>
        if (rest.take count).length == count && (rest.take count).all isHexDigit then
          match rest.drop count with
          | '\'' :: after => some ('\\' :: c :: rest.take count ++ ['\''], after)
          | _ => none
        else none := rfl

theorem selfClosed_runeText : SelfClosed runeText := by
  intro text taken left read
  unfold runeText at read
  split at read
  · rename_i c rest
    have escape : runeText ('\\' :: c :: rest) = some (taken, left) := read
    rw [runeText_escape] at escape
    cases digits : runeDigits c with
    | none =>
      rw [digits] at escape
      cases escape
    | some count =>
      simp only [digits] at escape
      split at escape <;> rename_i number
      · split at escape <;> rename_i more behind
        · cases escape
          have length : (rest.take count).length = count := by
            simp only [Bool.and_eq_true, beq_iff_eq] at number
            exact number.1
          have split : rest = rest.take count ++ '\'' :: left := by
            rw [← behind, List.take_append_drop]
          generalize rest.take count = inner at *
          refine ⟨by simp [split], fun other => ?_⟩
          have again : (inner ++ '\'' :: other).take count = inner ∧
              (inner ++ '\'' :: other).drop count = '\'' :: other := by
            subst length
            exact ⟨List.take_left, List.drop_left⟩
          simp only [List.cons_append, List.append_assoc, List.nil_append]
          rw [runeText_escape, digits]
          simp only [again.1, again.2]
          rw [if_pos number]
          rfl
        · cases escape
      · cases escape
  · rename_i c rest notEscape
    split at read <;> rename_i plain
    · cases read
    · cases read
      refine ⟨rfl, fun other => ?_⟩
      rw [List.cons_append, List.singleton_append, runeText]
      · rw [if_neg plain]
      · exact fun escape => notEscape escape
  · cases read

end Scaffold.Go
