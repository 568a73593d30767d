import Scaffold.Proofs.Go.Lexeme

/-! Elements that end with a line break are that line break. -/

namespace Scaffold.Go

/-- A reader that takes no line break. -/
def Unbroken (reader : List Char → List Char × List Char) : Prop :=
  ∀ text, '\n' ∉ (reader text).1

namespace Unbroken

theorem inTurn {first second : List Char → List Char × List Char} (one : Unbroken first)
    (other : Unbroken second) : Unbroken (inTurn first second) := by
  intro text
  rw [Go.inTurn, List.mem_append, not_or]
  exact ⟨one text, other _⟩

theorem leadingRun {test : Char → Bool} (refuses : test '\n' = false) :
    Unbroken (leadingRun test) := by
  intro text member
  have passes : test '\n' = true := List.mem_takeWhile_imp member
  rw [refuses] at passes
  cases passes

theorem behindMark {mark : Char} {inner : List Char → List Char × List Char}
    (plain : mark ≠ '\n') (within : Unbroken inner) : Unbroken (behindMark mark inner) := by
  intro text
  cases text with
  | nil => exact List.not_mem_nil
  | cons c rest =>
    rw [Go.behindMark]
    split <;> rename_i is
    · rw [List.mem_cons, not_or, is]
      exact ⟨plain.symm, within rest⟩
    · exact List.not_mem_nil

theorem nothing : Unbroken fun text => ([], text) :=
  fun _ => List.not_mem_nil

theorem exponent {letters : List Char} (plain : letters.contains '\n' = false) :
    Unbroken (exponent letters) := by
  intro text
  have digits := Unbroken.leadingRun (by decide : isDigitOrLine '\n' = false)
  have letter : ∀ {c : Char}, letters.contains c = true → '\n' ≠ c := by
    rintro c member rfl
    rw [plain] at member
    cases member
  have digit : ∀ {c : Char}, c.isDigit = true → '\n' ≠ c := by
    rintro c is rfl
    exact absurd is (by decide)
  unfold Go.exponent
  split
  · split <;> rename_i signed
    · simp only [Bool.and_eq_true, Bool.or_eq_true, beq_iff_eq] at signed
      obtain ⟨⟨is, sign⟩, number⟩ := signed
      simp only [List.mem_cons, not_or]
      refine ⟨letter is, ?_, digit number, digits _⟩
      rcases sign with rfl | rfl <;> decide
    · split <;> rename_i unsigned
      · simp only [Bool.and_eq_true] at unsigned
        simp only [List.mem_cons, not_or]
        exact ⟨letter unsigned.1, digit unsigned.2, digits _⟩
      · exact List.not_mem_nil
  · split <;> rename_i unsigned
    · simp only [Bool.and_eq_true] at unsigned
      simp only [List.mem_cons, not_or]
      exact ⟨letter unsigned.1, digit unsigned.2, List.not_mem_nil⟩
    · exact List.not_mem_nil
  · exact List.not_mem_nil

theorem numberTail {digit : Char → Bool} {letters : List Char} (refuses : digit '\n' = false)
    (plain : letters.contains '\n' = false) : Unbroken (numberTail digit letters) := by
  rw [numberTail_eq]
  have digits := Unbroken.leadingRun refuses
  exact ((digits.inTurn (.behindMark (by decide) digits)).inTurn (.exponent plain)).inTurn
    (.behindMark (by decide) .nothing)

theorem numberText : Unbroken numberText := by
  intro text
  by_cases based : beginsBased text = true
  · unfold beginsBased at based
    split at based
    · rename_i base rest
      have unbroken : '\n' ≠ base := by
        rintro rfl
        exact absurd based (by decide)
      have tail : Unbroken (Go.numberTail isHexOrLine ['p', 'P']) :=
        .numberTail (by decide) (by decide)
      have binary : Unbroken binaryTail :=
        (Unbroken.leadingRun (by decide)).inTurn (.behindMark (by decide) .nothing)
      rw [numberText_based based]
      split <;> simp only [List.mem_cons, not_or]
      · exact ⟨by decide, unbroken, tail rest⟩
      · exact ⟨by decide, unbroken, binary rest⟩
    · cases based
  · rw [numberText_of_not_based (by simpa using based)]
    exact Unbroken.numberTail (by decide) (by decide) text

end Unbroken

private theorem getLast?_cons_of_some {α : Type} {x last : α} {xs : List α}
    (ends : xs.getLast? = some last) : (x :: xs).getLast? = some last := by
  rw [List.getLast?_cons, ends]
  rfl

/-- A block comment ends with a slash. -/
private theorem getLast?_blockComment {text taken left : List Char}
    (read : blockComment text = some (taken, left)) : taken.getLast? = some '/' := by
  induction text using blockComment.induct generalizing taken with
  | case1 rest =>
    cases read
    rfl
  | case2 c rest notClosing ih =>
    rw [blockComment] at read
    · obtain ⟨⟨inner, after⟩, found, same⟩ := Option.map_eq_some_iff.mp read
      cases same
      exact getLast?_cons_of_some (ih found)
    · exact notClosing
  | case3 => cases read

private theorem getLast?_rawText {text taken left : List Char}
    (read : rawText text = some (taken, left)) : taken.getLast? = some backquote := by
  induction text generalizing taken with
  | nil => cases read
  | cons c rest ih =>
    rw [rawText] at read
    split at read <;> rename_i is
    · cases read
      rw [eq_of_beq is]
      rfl
    · obtain ⟨⟨inner, after⟩, found, same⟩ := Option.map_eq_some_iff.mp read
      cases same
      exact getLast?_cons_of_some (ih found)

private theorem getLast?_interpretedText {text taken left : List Char}
    (read : interpretedText text = some (taken, left)) : taken.getLast? = some '"' := by
  induction text using interpretedText.induct generalizing taken with
  | case1 => cases read
  | case2 c rest fits ih =>
    rw [interpretedText, if_pos fits] at read
    obtain ⟨⟨inner, after⟩, found, same⟩ := Option.map_eq_some_iff.mp read
    cases same
    exact getLast?_cons_of_some (getLast?_cons_of_some (ih found))
  | case3 c rest unfit =>
    rw [interpretedText, if_neg unfit] at read
    cases read
  | case4 c rest notEscape is =>
    rw [interpretedText, if_pos is] at read
    · cases read
      rw [eq_of_beq is]
      rfl
    · exact notEscape
  | case5 c rest notEscape is ends =>
    rw [interpretedText, if_neg is, if_pos ends] at read
    · cases read
    · exact notEscape
  | case6 c rest notEscape is goesOn ih =>
    rw [interpretedText, if_neg is, if_neg goesOn] at read
    · obtain ⟨⟨inner, after⟩, found, same⟩ := Option.map_eq_some_iff.mp read
      cases same
      exact getLast?_cons_of_some (ih found)
    · exact notEscape

private theorem getLast?_runeText {text taken left : List Char}
    (read : runeText text = some (taken, left)) : taken.getLast? = some '\'' := by
  unfold runeText at read
  split at read
  · simp only at read
    split at read
    · cases read
    · split at read
      · split at read
        · cases read
          exact List.getLast?_concat
        · cases read
      · cases read
  · split at read
    · cases read
    · cases read
      rfl
  · cases read

private theorem getLast?_markText {text taken left : List Char}
    (read : markText text = some (taken, left)) : taken.getLast? ≠ some '\n' := by
  obtain ⟨mark, found, same⟩ := Option.map_eq_some_iff.mp read
  cases same
  have plain : ∀ mark ∈ marks, mark.toList.getLast? ≠ some '\n' := by decide
  exact plain mark (List.mem_of_find?_eq_some found)

/-- What ends with a line break, though no part of it is one, is that line break alone. -/
private theorem not_ends_break {chars : List Char} (unbroken : '\n' ∉ chars) :
    chars.getLast? ≠ some '\n' :=
  fun ends => unbroken (List.mem_of_getLast? ends)

/-- An element that ends with a line break is a blank one. -/
theorem eq_blank_of_break {c : Char} {rest left : List Char} {lexeme : Lexeme}
    (read : nextLexeme c rest = some (lexeme, left)) (ends : lexeme.chars.getLast? = some '\n') :
    lexeme = .blank '\n' := by
  rw [nextLexeme_eq] at read
  split at read
  · cases read
    exact congrArg Lexeme.blank (by simpa [Lexeme.chars] using ends)
  rename_i space
  have unbroken : '\n' ≠ c := by
    rintro rfl
    exact space (by decide)
  split at read
  · cases read
    have line : Unbroken (leadingRun fun d => d != '\n') := .leadingRun (by decide)
    have whole : '\n' ∉ c :: (leadingRun (fun d => d != '\n') rest).1 := by
      rw [List.mem_cons, not_or]
      exact ⟨unbroken, line rest⟩
    exact absurd ends (not_ends_break whole)
  split at read
  · obtain ⟨⟨text, after⟩, found, same⟩ := Option.map_eq_some_iff.mp read
    cases same
    have slash := getLast?_cons_of_some (x := '/') (getLast?_cons_of_some (x := '*')
      (getLast?_blockComment found))
    rw [Lexeme.chars, slash] at ends
    exact absurd ends (by decide)
  split at read
  · cases read
    have word := Unbroken.leadingRun (by decide : Unicode.isIdentifierContinue '\n' = false) rest
    have chars : (wordLexeme (c :: (leadingRun Unicode.isIdentifierContinue rest).1)).chars =
        c :: (leadingRun Unicode.isIdentifierContinue rest).1 := rfl
    rw [chars] at ends
    exact absurd ends (not_ends_break (by simpa using ⟨unbroken, word⟩))
  split at read
  · cases read
    exact absurd ends (not_ends_break (Unbroken.numberText _))
  unfold closedLexeme at read
  split at read
  · obtain ⟨⟨text, after⟩, found, same⟩ := Option.map_eq_some_iff.mp read
    cases same
    rw [Lexeme.chars, getLast?_cons_of_some (getLast?_interpretedText found)] at ends
    exact absurd ends (by decide)
  split at read
  · obtain ⟨⟨text, after⟩, found, same⟩ := Option.map_eq_some_iff.mp read
    cases same
    rw [Lexeme.chars, getLast?_cons_of_some (getLast?_rawText found)] at ends
    exact absurd ends (by decide)
  split at read
  · obtain ⟨⟨text, after⟩, found, same⟩ := Option.map_eq_some_iff.mp read
    cases same
    rw [Lexeme.chars, getLast?_cons_of_some (getLast?_runeText found)] at ends
    exact absurd ends (by decide)
  split at read
  · cases read
    exact absurd ends (not_ends_break (by simpa [Lexeme.chars] using unbroken))
  · obtain ⟨⟨text, after⟩, found, same⟩ := Option.map_eq_some_iff.mp read
    cases same
    exact absurd ends (getLast?_markText found)

/-- Elements that end with a line break are found again whatever follows them. -/
theorem Lexes.behind_break {text between : List Char} {lexemes : List Lexeme}
    (reads : Lexes text lexemes between) (ends : (lexemeChars lexemes).getLast? = some '\n')
    (more : List Char) : Lexes (lexemeChars lexemes ++ more) lexemes more := by
  rcases List.eq_nil_or_concat lexemes with rfl | ⟨front, last, rfl⟩
  · cases ends
  · rw [List.concat_eq_append] at *
    obtain ⟨middle, before, here⟩ := reads.split
    cases here with
    | cons first others =>
      cases others
      obtain ⟨taken, chars, -⟩ := nextLexeme_split first
      have final : last.chars.getLast? = some '\n' := by
        rw [lexemeChars_append, lexemeChars_cons, lexemeChars_nil, List.append_nil,
          List.getLast?_append] at ends
        cases own : last.chars.getLast? with
        | none => rw [List.getLast?_eq_none_iff, chars] at own; cases own
        | some d => rwa [own] at ends
      obtain rfl := eq_blank_of_break first final
      have again := before.seam (.of_break _ more) (.of_break _ _ more)
      have blank : nextLexeme '\n' more = some (.blank '\n', more) := by
        rw [nextLexeme_eq, if_pos (by decide)]
      rw [lexemeChars_append, List.append_assoc]
      exact again.append (.cons blank .nil)

namespace FileLexes

variable {text between after : List Char} {lexemes more : List Lexeme}

theorem append (front : FileLexes text lexemes between) (back : Lexes between more after) :
    FileLexes text (lexemes ++ more) after := by
  cases front with
  | marked mark reads => exact .marked mark (reads.append back)
  | plain unmarked reads => exact .plain unmarked (reads.append back)

/-- Elements of a file that end with a line break are found again whatever follows them. -/
theorem behind_break (reads : FileLexes text lexemes between)
    (ends : (lexemeChars lexemes).getLast? = some '\n') (rest : List Char) :
    FileLexes (lexemeChars lexemes ++ rest) lexemes rest := by
  cases reads with
  | @marked c _ _ lexemes mark reads =>
    rw [lexemeChars_cons] at ends ⊢
    cases lexemes with
    | nil =>
      have broken : c = '\n' := by simpa [Lexeme.chars] using ends
      rw [broken] at mark
      exact absurd mark (by decide)
    | cons lexeme others =>
      refine .marked mark (reads.behind_break ?_ rest)
      cases reads with
      | cons first behind =>
        obtain ⟨taken, chars, -⟩ := nextLexeme_split first
        rw [lexemeChars_cons, chars] at ends ⊢
        simpa [Lexeme.chars] using ends
  | plain unmarked reads =>
    refine .plain (fun c is => ?_) (reads.behind_break ends rest)
    cases reads with
    | nil => cases ends
    | cons first others =>
      obtain ⟨taken, chars, -⟩ := nextLexeme_split first
      rw [lexemeChars_cons, chars, List.append_assoc, List.cons_append] at is
      exact unmarked c is

end FileLexes

end Scaffold.Go
