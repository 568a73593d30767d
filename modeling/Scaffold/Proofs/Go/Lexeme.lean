import Scaffold.Proofs.Go.Seam
import Scaffold.Proofs.Go.SelfClosed

/-! The elements of a source, one after the other, and what they say about its characters. -/

namespace Scaffold.Go

/-- A slash that opens no comment on one side of a seam opens none on the other. -/
private theorem Seam.slash {first second : List Char} (seam : Seam first second) {c mark : Char}
    (unmarked : mark ∉ seamMarks) (not : ¬(c == '/' && first.head? == some mark) = true) :
    ¬(c == '/' && second.head? == some mark) = true := by
  intro opens
  simp only [Bool.and_eq_true, beq_iff_eq] at not opens
  rcases seam.head with ⟨begun, member, head⟩ | same
  · rw [head, Option.some_inj] at opens
    exact unmarked (opens.2 ▸ member)
  · exact not ⟨opens.1, same ▸ opens.2⟩

/-- A point that begins no number on one side of a seam begins none on the other. -/
private theorem Seam.point {first second : List Char} (seam : Seam first second) {c : Char}
    (not : ¬(c.isDigit || c == '.' && (first.head?.map Char.isDigit).getD false) = true) :
    ¬(c.isDigit || c == '.' && (second.head?.map Char.isDigit).getD false) = true := by
  intro begins
  rcases seam.head with ⟨mark, member, head⟩ | same
  · rw [head] at begins
    have nothing : ∀ c ∈ seamMarks, ((some c).map Char.isDigit).getD false = false :=
      forall_seamMarks.mpr (by decide)
    rw [nothing mark member, Bool.and_false, Bool.or_false] at begins
    exact not (by rw [begins, Bool.true_or])
  · exact not (same ▸ begins)

/-- A digit, or a point in front of one, is what a number begins with. -/
def beginsNumber (c : Char) (rest : List Char) : Bool :=
  c.isDigit || c == '.' && (rest.head?.map Char.isDigit).getD false

private theorem inTurn_begins {first second : List Char → List Char × List Char}
    {text lead : List Char} (begins : lead <+: (first text).1) :
    lead <+: (inTurn first second text).1 :=
  begins.trans (List.prefix_append _ _)

/-- The digit, or the point and the digit, that a number begins with are part of it. -/
private theorem numberText_begins {c : Char} {rest : List Char}
    (begins : beginsNumber c rest = true) :
    c.isDigit = true ∧ [c] <+: (numberText (c :: rest)).1 ∨
      c = '.' ∧ ∃ d, d.isDigit = true ∧ ['.', d] <+: (numberText (c :: rest)).1 := by
  have digits : ∀ d : Char, d.isDigit = true → isDigitOrLine d = true :=
    fun d digit => by rw [isDigitOrLine, digit, Bool.true_or]
  by_cases based : beginsBased (c :: rest) = true
  · unfold beginsBased at based
    split at based
    · rename_i base more same
      cases same
      rw [numberText_based based]
      refine .inl ⟨by decide, ?_⟩
      split <;> simp
    · cases based
  · rw [numberText_of_not_based (by simpa using based), numberTail_eq]
    by_cases digit : c.isDigit = true
    · refine .inl ⟨digit, inTurn_begins (inTurn_begins (inTurn_begins ?_))⟩
      simp [leadingRun, digits c digit]
    · simp only [Bool.not_eq_true] at digit
      rw [beginsNumber, digit, Bool.false_or, Bool.and_eq_true, beq_iff_eq] at begins
      obtain ⟨rfl, behind⟩ := begins
      cases rest with
      | nil => cases behind
      | cons d more =>
        have digit : d.isDigit = true := behind
        have first : isDigitOrLine '.' = false := by decide
        refine .inr ⟨rfl, d, digit, inTurn_begins (inTurn_begins ?_)⟩
        simp [inTurn, leadingRun, behindMark, digits d digit, first]

/-- A literal between quotes, a semicolon or a mark. -/
def closedLexeme (c : Char) (rest : List Char) : Option (Lexeme × List Char) :=
  if c == '"' then
    (interpretedText rest).map fun (text, after) => (.token .text (c :: text), after)
  else if c == backquote then
    (rawText rest).map fun (text, after) => (.token .text (c :: text), after)
  else if c == '\'' then
    (runeText rest).map fun (text, after) => (.token .rune (c :: text), after)
  else if c == ';' then some (.token .terminator [c], rest)
  else (markText (c :: rest)).map fun (text, after) => (.token .mark text, after)

/-- The kinds of elements, told by what they begin with. -/
theorem nextLexeme_eq (c : Char) (rest : List Char) :
    nextLexeme c rest =
      if isSpace c then some (.blank c, rest)
      else if c == '/' && rest.head? == some '/' then
        some (.comment (c :: (leadingRun (· != '\n') rest).1), (leadingRun (· != '\n') rest).2)
      else if c == '/' && rest.head? == some '*' then
        (blockComment rest.tail).map fun (text, after) => (.comment ('/' :: '*' :: text), after)
      else if Unicode.isIdentifierStart c then
        some (wordLexeme (c :: (leadingRun Unicode.isIdentifierContinue rest).1),
          (leadingRun Unicode.isIdentifierContinue rest).2)
      else if beginsNumber c rest then
        some (.token .number (numberText (c :: rest)).1, (numberText (c :: rest)).2)
      else closedLexeme c rest := rfl

/-- Literals and marks are found again behind a seam. -/
private theorem closedLexeme_seam {c : Char} {rest left left' : List Char} {lexeme : Lexeme}
    (read : closedLexeme c rest = some (lexeme, left)) (seam : Seam left left') :
    ∃ taken, lexeme.chars = c :: taken ∧ rest = taken ++ left ∧
      closedLexeme c (taken ++ left') = some (lexeme, left') := by
  unfold closedLexeme at read ⊢
  split at read <;> rename_i double
  · obtain ⟨⟨text, after⟩, found, same⟩ := Option.map_eq_some_iff.mp read
    cases same
    obtain ⟨split, again⟩ := selfClosed_interpretedText found
    exact ⟨text, rfl, split, by rw [if_pos double, again left']; rfl⟩
  split at read <;> rename_i back
  · obtain ⟨⟨text, after⟩, found, same⟩ := Option.map_eq_some_iff.mp read
    cases same
    obtain ⟨split, again⟩ := selfClosed_rawText found
    exact ⟨text, rfl, split, by rw [if_neg double, if_pos back, again left']; rfl⟩
  split at read <;> rename_i single
  · obtain ⟨⟨text, after⟩, found, same⟩ := Option.map_eq_some_iff.mp read
    cases same
    obtain ⟨split, again⟩ := selfClosed_runeText found
    exact ⟨text, rfl, split, by rw [if_neg double, if_neg back, if_pos single, again left']; rfl⟩
  split at read <;> rename_i stop
  · cases read
    refine ⟨[], rfl, rfl, ?_⟩
    rw [List.nil_append, if_neg double, if_neg back, if_neg single, if_pos stop]
  · obtain ⟨⟨text, after⟩, found, same⟩ := Option.map_eq_some_iff.mp read
    cases same
    obtain ⟨split, again⟩ := steady_markText found seam
    obtain ⟨taken, rfl⟩ : ∃ taken, text = c :: taken := by
      cases text with
      | nil => exact absurd found markText_ne_nil
      | cons d taken => exact ⟨taken, by rw [(List.cons.inj split).1]⟩
    refine ⟨taken, rfl, (List.cons.inj split).2, ?_⟩
    rw [if_neg double, if_neg back, if_neg single, if_neg stop, ← List.cons_append, again]
    rfl

/-- A line comment goes up to a line break on both sides of a seam, unless a bracket comes first. -/
private theorem lineComment_seam {rest left' : List Char}
    (seam : Seam (leadingRun (· != '\n') rest).2 left') (unclosed : left'.head? ≠ some ']') :
    leadingRun (· != '\n') ((leadingRun (· != '\n') rest).1 ++ left') =
      ((leadingRun (· != '\n') rest).1, left') := by
  refine leadingRun_again fun c is => ?_
  rcases seam.head with ⟨mark, member, head⟩ | same
  · have marks : mark = '\n' ∨ mark = ']' := by simpa [seamMarks] using member
    rcases marks with rfl | rfl
    · rw [head] at is
      cases is
      rfl
    · exact absurd head unclosed
  · rw [same] at is
    exact leadingRun_stops (· != '\n') is

/-- Behind an element stands no bracket, or one that stood there before, or it is no comment. -/
def EndsAt (lexeme : Option Lexeme) (left left' : List Char) : Prop :=
  left'.head? = some ']' → left.head? = some ']' ∨ ∀ text, lexeme ≠ some (.comment text)

theorem EndsAt.of_break (lexeme : Option Lexeme) (left rest : List Char) :
    EndsAt lexeme left ('\n' :: rest) := by
  intro closed
  cases closed

/-- An element is found again in front of another text behind the seam. -/
theorem nextLexeme_seam {c : Char} {rest left left' : List Char} {lexeme : Lexeme}
    (read : nextLexeme c rest = some (lexeme, left)) (seam : Seam left left')
    (ends : EndsAt lexeme left left') :
    ∃ taken, lexeme.chars = c :: taken ∧ rest = taken ++ left ∧
      nextLexeme c (taken ++ left') = some (lexeme, left') := by
  rw [nextLexeme_eq] at read
  split at read <;> rename_i space
  · cases read
    exact ⟨[], rfl, rfl, by rw [List.nil_append, nextLexeme_eq, if_pos space]⟩
  split at read <;> rename_i line
  · cases read
    have unclosed : left'.head? ≠ some ']' := by
      intro closed
      rcases ends closed with same | other
      · exact absurd (leadingRun_stops (· != '\n') same) (by decide)
      · exact other _ rfl
    have again := lineComment_seam seam unclosed
    simp only [Bool.and_eq_true, beq_iff_eq] at line
    obtain ⟨rfl, head⟩ := line
    obtain ⟨more, rfl⟩ := List.head?_eq_some_iff.mp head
    refine ⟨_, rfl, (List.takeWhile_append_dropWhile (p := (· != '\n'))).symm, ?_⟩
    rw [nextLexeme_eq, if_neg space, if_pos (by simp [leadingRun]), again]
  split at read <;> rename_i block
  · simp only [Bool.and_eq_true, beq_iff_eq] at block
    obtain ⟨rfl, head⟩ := block
    obtain ⟨more, rfl⟩ := List.head?_eq_some_iff.mp head
    obtain ⟨⟨text, after⟩, found, same⟩ := Option.map_eq_some_iff.mp read
    cases same
    obtain ⟨split, again⟩ := selfClosed_blockComment found
    rw [List.tail_cons] at split
    refine ⟨'*' :: text, rfl, by rw [split, List.cons_append], ?_⟩
    rw [nextLexeme_eq, if_neg space, if_neg (by simp), if_pos (by simp), List.cons_append,
      List.tail_cons, again left']
    rfl
  -- From here on the characters behind the seam only matter if they open a comment.
  have unopened : ∀ taken, rest = taken ++ left →
      ¬(c == '/' && (taken ++ left').head? == some '/') = true ∧
        ¬(c == '/' && (taken ++ left').head? == some '*') = true := by
    rintro taken rfl
    exact ⟨(seam.append taken).slash (by decide) line, (seam.append taken).slash (by decide) block⟩
  split at read <;> rename_i start
  · have words : Steady (leadingRun Unicode.isIdentifierContinue) :=
      steady_leadingRun (forall_seamMarks.mpr (by decide))
    cases read
    have again := words.retake rest seam
    have whole := words.parts rest
    refine ⟨_, rfl, whole, ?_⟩
    rw [nextLexeme_eq, if_neg space, if_neg (unopened _ whole).1, if_neg (unopened _ whole).2,
      if_pos start, again]
  split at read <;> rename_i number
  · cases read
    have again := steady_numberText.retake (c :: rest) seam
    have whole := steady_numberText.parts (c :: rest)
    obtain ⟨taken, split, still⟩ : ∃ taken, (numberText (c :: rest)).1 = c :: taken ∧
        beginsNumber c (taken ++ left') = true := by
      rcases numberText_begins number with ⟨digit, more, split⟩ | ⟨rfl, d, digit, more, split⟩
      · exact ⟨more, split.symm, by rw [beginsNumber, digit, Bool.true_or]⟩
      · exact ⟨d :: more, split.symm, by simp [beginsNumber, digit]⟩
    rw [split] at whole again
    have rebuilt := (List.cons.inj whole).2
    refine ⟨taken, split, rebuilt, ?_⟩
    rw [nextLexeme_eq, if_neg space, if_neg (unopened _ rebuilt).1, if_neg (unopened _ rebuilt).2,
      if_neg start, if_pos still, ← List.cons_append, again, split]
  · obtain ⟨taken, chars, split, again⟩ := closedLexeme_seam read seam
    have unnumbered : ¬beginsNumber c (taken ++ left') = true := by
      subst split
      exact (seam.append taken).point number
    refine ⟨taken, chars, split, ?_⟩
    rw [nextLexeme_eq, if_neg space, if_neg (unopened _ split).1, if_neg (unopened _ split).2,
      if_neg start, if_neg unnumbered, again]

/-- Whether some characters are a name that may be chosen freely. -/
def isName : List Char → Bool
  | [] => false
  | c :: rest =>
    Unicode.isIdentifierStart c && rest.all Unicode.isIdentifierContinue &&
      !keywords.contains (String.ofList (c :: rest))

/-- No element is the end of a file, and words are names. -/
theorem kind_of_nextLexeme {c : Char} {rest left text : List Char} {kind : TokenKind}
    (read : nextLexeme c rest = some (.token kind text, left)) :
    kind ≠ .eof ∧ (kind = .word → isName text = true) := by
  rw [nextLexeme_eq] at read
  split at read
  · cases read
  split at read
  · cases read
  split at read
  · obtain ⟨⟨_, _⟩, -, same⟩ := Option.map_eq_some_iff.mp read
    cases same
  split at read <;> rename_i start
  · obtain ⟨same, -⟩ := Prod.mk.inj (Option.some.inj read)
    rw [wordLexeme] at same
    obtain ⟨rfl, rfl⟩ := Lexeme.token.inj same
    split <;> rename_i reserved
    · exact ⟨by decide, fun is => by cases is⟩
    · refine ⟨by decide, fun _ => ?_⟩
      simp only [Bool.not_eq_true] at reserved
      rw [isName, start, reserved, leadingRun, List.all_takeWhile]
      rfl
  split at read
  · cases read
    exact ⟨by decide, fun is => by cases is⟩
  unfold closedLexeme at read
  split at read
  · obtain ⟨⟨_, _⟩, -, same⟩ := Option.map_eq_some_iff.mp read
    cases same
    exact ⟨by decide, fun is => by cases is⟩
  split at read
  · obtain ⟨⟨_, _⟩, -, same⟩ := Option.map_eq_some_iff.mp read
    cases same
    exact ⟨by decide, fun is => by cases is⟩
  split at read
  · obtain ⟨⟨_, _⟩, -, same⟩ := Option.map_eq_some_iff.mp read
    cases same
    exact ⟨by decide, fun is => by cases is⟩
  split at read
  · cases read
    exact ⟨by decide, fun is => by cases is⟩
  · obtain ⟨⟨_, _⟩, -, same⟩ := Option.map_eq_some_iff.mp read
    cases same
    exact ⟨by decide, fun is => by cases is⟩

/-- The text `before` is made up of the elements, in front of the text `after`. -/
inductive Lexes : List Char → List Lexeme → List Char → Prop
  | nil {text : List Char} : Lexes text [] text
  | cons {c : Char} {rest between after : List Char} {lexeme : Lexeme} {more : List Lexeme}
      (first : nextLexeme c rest = some (lexeme, between)) (others : Lexes between more after) :
      Lexes (c :: rest) (lexeme :: more) after

/-- The characters of some elements. -/
def lexemeChars (lexemes : List Lexeme) : List Char :=
  lexemes.flatMap Lexeme.chars

@[simp] theorem lexemeChars_nil : lexemeChars [] = [] := rfl

@[simp] theorem lexemeChars_cons (lexeme : Lexeme) (rest : List Lexeme) :
    lexemeChars (lexeme :: rest) = lexeme.chars ++ lexemeChars rest := rfl

@[simp] theorem lexemeChars_append (first second : List Lexeme) :
    lexemeChars (first ++ second) = lexemeChars first ++ lexemeChars second :=
  List.flatMap_append

/-- An element takes its own characters off the text. -/
theorem nextLexeme_split {c : Char} {rest left : List Char} {lexeme : Lexeme}
    (read : nextLexeme c rest = some (lexeme, left)) :
    ∃ taken, lexeme.chars = c :: taken ∧ rest = taken ++ left := by
  obtain ⟨taken, chars, split, -⟩ := nextLexeme_seam read (.of_break left []) (.of_break _ _ [])
  exact ⟨taken, chars, split⟩

namespace Lexes

variable {text between after : List Char} {lexemes more : List Lexeme}

/-- No character is lost. -/
theorem chars (reads : Lexes text lexemes after) : text = lexemeChars lexemes ++ after := by
  induction reads with
  | nil => rfl
  | cons first _ ih =>
    obtain ⟨taken, chars, rfl⟩ := nextLexeme_split first
    rw [lexemeChars_cons, chars, ih]
    simp

theorem append (front : Lexes text lexemes between) (back : Lexes between more after) :
    Lexes text (lexemes ++ more) after := by
  induction front with
  | nil => exact back
  | cons first _ ih => exact .cons first (ih back)

/-- The elements are found again in front of another text behind the seam. -/
theorem seam {after' : List Char} (reads : Lexes text lexemes after) (seam : Seam after after')
    (ends : EndsAt lexemes.getLast? after after') :
    Lexes (lexemeChars lexemes ++ after') lexemes after' := by
  induction reads with
  | nil => exact .nil
  | @cons c rest between after lexeme others first behind ih =>
    have through : Seam between (lexemeChars others ++ after') := by
      rw [behind.chars]
      exact seam.append _
    have front : EndsAt lexeme between (lexemeChars others ++ after') := by
      cases behind with
      | nil => exact ends
      | cons next more =>
        obtain ⟨begun, chars, -⟩ := nextLexeme_split next
        intro closed
        rw [lexemeChars_cons, chars] at closed
        exact .inl closed
    have back : EndsAt others.getLast? after after' := by
      cases others with
      | nil => exact fun _ => .inr fun _ is => by cases is
      | cons next more => rwa [List.getLast?_cons_cons] at ends
    obtain ⟨taken, chars, split, again⟩ := nextLexeme_seam first through front
    rw [lexemeChars_cons, chars, List.append_assoc, List.cons_append]
    exact .cons again (ih seam back)

/-- Elements can be divided where one of them begins. -/
theorem split {first second : List Lexeme} (reads : Lexes text (first ++ second) after) :
    ∃ between, Lexes text first between ∧ Lexes between second after := by
  induction first generalizing text with
  | nil => exact ⟨text, .nil, reads⟩
  | cons lexeme first ih =>
    cases reads with
    | cons one others =>
      obtain ⟨between, front, back⟩ := ih others
      exact ⟨between, .cons one front, back⟩

end Lexes

/-- The elements of a text, whatever stands before it. -/
def allLexemes (text : List Char) : List Lexeme × Bool :=
  lexemesWithin text.length text

/-- What an element leaves is shorter than the text. -/
theorem length_of_nextLexeme {c : Char} {rest left : List Char} {lexeme : Lexeme}
    (read : nextLexeme c rest = some (lexeme, left)) : left.length ≤ rest.length := by
  obtain ⟨taken, -, rfl⟩ := nextLexeme_split read
  simp

/-- The limit on the number of elements never matters. -/
theorem lexemesWithin_eq {limit : Nat} {text : List Char} (enough : text.length ≤ limit) :
    lexemesWithin limit text = allLexemes text := by
  rw [allLexemes]
  generalize bound : text.length = limit' at enough
  have enough' : text.length ≤ limit' := by omega
  clear bound
  -- Every element takes a character.
  induction limit generalizing text limit' with
  | zero =>
    obtain rfl : limit' = 0 := by omega
    rfl
  | succ limit ih =>
    cases text with
    | nil => cases limit' <;> rfl
    | cons c rest =>
      obtain ⟨limit', rfl⟩ : ∃ less, limit' = less + 1 := by
        rw [List.length_cons] at enough'
        exact ⟨limit' - 1, by omega⟩
      rw [lexemesWithin, lexemesWithin]
      cases read : nextLexeme c rest with
      | none => rfl
      | some pair =>
        have shorter := length_of_nextLexeme read
        rw [List.length_cons] at enough'
        have others : lexemesWithin limit pair.2 = lexemesWithin limit' pair.2 :=
          ih limit' (by omega) (by omega)
        simp only [others]

theorem allLexemes_cons {c : Char} {rest left : List Char} {lexeme : Lexeme}
    (read : nextLexeme c rest = some (lexeme, left)) :
    allLexemes (c :: rest) = (lexeme :: (allLexemes left).1, (allLexemes left).2) := by
  rw [allLexemes, List.length_cons, lexemesWithin, read]
  simp only [lexemesWithin_eq (length_of_nextLexeme read)]

/-- Elements in front are the first ones of all. -/
theorem Lexes.allLexemes {text after : List Char} {lexemes : List Lexeme}
    (reads : Lexes text lexemes after) :
    allLexemes text = (lexemes ++ (allLexemes after).1, (allLexemes after).2) := by
  induction reads with
  | nil => rfl
  | cons first _ ih =>
    rw [allLexemes_cons first, ih]
    rfl

theorem nextLexeme_blank {c : Char} (space : isSpace c = true) (rest : List Char) :
    nextLexeme c rest = some (.blank c, rest) := by
  rw [nextLexeme_eq, if_pos space]

/-- What begins an identifier is neither blank nor a slash. -/
private theorem plain_of_start {c : Char} (start : Unicode.isIdentifierStart c = true) :
    isSpace c = false ∧ c ≠ '/' := by
  have blank : ∀ code < 14, Unicode.isIdentifierStart (Char.ofNat code) = false := by decide
  constructor
  · by_contra space
    simp only [Bool.not_eq_false, isSpace, Bool.or_eq_true, beq_iff_eq, Bool.and_eq_true,
      decide_eq_true_eq] at space
    rcases space with rfl | range
    · exact absurd start (by decide)
    · have not := blank c.toNat (by omega)
      rw [Char.ofNat_toNat, start] at not
      cases not
  · rintro rfl
    exact absurd start (by decide)

/-- A name or keyword is read up to a character that does not continue it. -/
theorem nextLexeme_word {c : Char} {more rest : List Char}
    (start : Unicode.isIdentifierStart c = true)
    (continued : ∀ d ∈ more, Unicode.isIdentifierContinue d = true)
    (ends : ∀ d, rest.head? = some d → Unicode.isIdentifierContinue d = false) :
    nextLexeme c (more ++ rest) = some (wordLexeme (c :: more), rest) := by
  obtain ⟨noSpace, noSlash⟩ := plain_of_start start
  rw [nextLexeme_eq, if_neg (by simp [noSpace]), if_neg (by simp [noSlash]),
    if_neg (by simp [noSlash]), if_pos start, leadingRun_run continued ends]

/-- A name is read whole, unless more of it follows. -/
theorem lexes_name {name rest : List Char} (is : isName name = true)
    (ends : ∀ d, rest.head? = some d → Unicode.isIdentifierContinue d = false) :
    Lexes (name ++ rest) [.token .word name] rest := by
  cases name with
  | nil => cases is
  | cons c more =>
    simp only [isName, Bool.and_eq_true, List.all_eq_true, Bool.not_eq_true'] at is
    obtain ⟨⟨start, continued⟩, free⟩ := is
    have word := Lexes.cons (nextLexeme_word start continued ends) .nil
    rwa [wordLexeme, if_neg (by simp only [free, Bool.false_eq_true, not_false_eq_true])] at word

/-- No element that is read is the end of a file, and words are names. -/
theorem Lexes.kind {text after chars : List Char} {lexemes : List Lexeme} {kind : TokenKind}
    (reads : Lexes text lexemes after) (member : .token kind chars ∈ lexemes) :
    kind ≠ .eof ∧ (kind = .word → isName chars = true) := by
  induction reads with
  | nil => cases member
  | cons first _ ih =>
    rcases List.mem_cons.mp member with rfl | later
    · exact kind_of_nextLexeme first
    · exact ih later

/-- Elements have characters. -/
theorem Lexes.eq_nil {text after : List Char} {lexemes : List Lexeme}
    (reads : Lexes text lexemes after) (none : lexemeChars lexemes = []) : lexemes = [] := by
  cases reads with
  | nil => rfl
  | cons first others =>
    obtain ⟨taken, chars, -⟩ := nextLexeme_split first
    rw [lexemeChars_cons, chars] at none
    cases none

/-- All elements of a text come up to its end, or to a place where none begins. -/
theorem lexes_allLexemes (text : List Char) : ∃ after, Lexes text (allLexemes text).1 after ∧
    Go.allLexemes after = ([], (allLexemes text).2) := by
  generalize bound : text.length = limit
  induction limit using Nat.strongRecOn generalizing text with
  | ind limit ih =>
    cases text with
    | nil => exact ⟨[], .nil, rfl⟩
    | cons c rest =>
      cases read : nextLexeme c rest with
      | none =>
        have nothing : Go.allLexemes (c :: rest) = ([], false) := by
          rw [Go.allLexemes, List.length_cons, lexemesWithin, read]
        rw [nothing]
        exact ⟨c :: rest, .nil, nothing⟩
      | some pair =>
        have shorter := length_of_nextLexeme read
        rw [List.length_cons] at bound
        obtain ⟨after, reads, none⟩ := ih pair.2.length (by omega) pair.2 rfl
        rw [allLexemes_cons read]
        exact ⟨after, .cons read reads, none⟩

/-- The elements that a file begins with, in front of the text `after`. -/
inductive FileLexes : List Char → List Lexeme → List Char → Prop
  | marked {c : Char} {rest after : List Char} {lexemes : List Lexeme} (mark : c.toNat = 0xFEFF)
      (reads : Lexes rest lexemes after) : FileLexes (c :: rest) (.blank c :: lexemes) after
  | plain {text after : List Char} {lexemes : List Lexeme}
      (unmarked : ∀ c, text.head? = some c → c.toNat ≠ 0xFEFF) (reads : Lexes text lexemes after) :
      FileLexes text lexemes after

namespace FileLexes

variable {text after : List Char} {lexemes : List Lexeme}

theorem chars (reads : FileLexes text lexemes after) : text = lexemeChars lexemes ++ after := by
  cases reads with
  | marked mark reads => rw [reads.chars]; rfl
  | plain unmarked reads => exact reads.chars

/-- The elements that a file begins with are the first ones of all. -/
theorem lexemes_eq (reads : FileLexes text lexemes after) :
    Go.lexemes text = (lexemes ++ (allLexemes after).1, (allLexemes after).2) := by
  cases reads with
  | @marked c rest _ _ mark reads =>
    rw [Go.lexemes, if_pos (by simpa using mark), ← allLexemes, reads.allLexemes]
    rfl
  | plain unmarked reads =>
    rw [← reads.allLexemes]
    cases text with
    | nil => rfl
    | cons c rest => rw [Go.lexemes, if_neg (by simpa using unmarked c rfl), allLexemes]

/-- All elements of a file come up to its end, or to a place where none begins. -/
theorem all (text : List Char) : ∃ after, FileLexes text (Go.lexemes text).1 after ∧
    allLexemes after = ([], (Go.lexemes text).2) := by
  cases text with
  | nil => exact ⟨[], .plain (by simp) .nil, rfl⟩
  | cons c rest =>
    rw [Go.lexemes]
    split <;> rename_i mark
    · obtain ⟨after, reads, none⟩ := lexes_allLexemes rest
      exact ⟨after, .marked (by simpa using mark) reads, none⟩
    · obtain ⟨after, reads, none⟩ := lexes_allLexemes (c :: rest)
      exact ⟨after, .plain (by simpa using mark) reads, none⟩

/-- Elements of a file can be divided behind the first one. -/
theorem split {first second : List Lexeme} (reads : FileLexes text (first ++ second) after)
    (some : first ≠ [] ∨ ∀ c, text.head? = some c → c.toNat ≠ 0xFEFF) :
    ∃ between, FileLexes text first between ∧ Lexes between second after := by
  generalize whole : first ++ second = lexemes at reads
  cases reads with
  | @marked c rest _ lexemes mark reads =>
    cases first with
    | nil => exact absurd mark ((some.resolve_left (fun not => not rfl)) c rfl)
    | cons lexeme first =>
      obtain ⟨rfl, rfl⟩ := List.cons.inj whole
      obtain ⟨between, front, back⟩ := reads.split
      exact ⟨between, .marked mark front, back⟩
  | plain unmarked reads =>
    subst whole
    obtain ⟨between, front, back⟩ := reads.split
    exact ⟨between, .plain unmarked front, back⟩

/-- The elements of a file are found again in front of another text behind the seam. -/
theorem seam {after' : List Char} (reads : FileLexes text lexemes after) (seam : Seam after after')
    (unclosed : after'.head? ≠ some ']')
    (some : lexemes ≠ [] ∨ ∀ c, after'.head? = some c → c.toNat ≠ 0xFEFF) :
    FileLexes (lexemeChars lexemes ++ after') lexemes after' := by
  have ends : ∀ lexeme, EndsAt lexeme after after' := fun _ closed => absurd closed unclosed
  cases reads with
  | marked mark reads => exact .marked mark (reads.seam seam (ends _))
  | plain unmarked reads =>
    refine .plain (fun c is => ?_) (reads.seam seam (ends _))
    cases reads with
    | nil => exact (some.resolve_left fun not => not rfl) c is
    | cons first others =>
      obtain ⟨taken, chars, -⟩ := nextLexeme_split first
      rw [lexemeChars_cons, chars, List.append_assoc, List.cons_append] at is
      exact unmarked c is

theorem eq_nil (reads : FileLexes text lexemes after) (none : lexemeChars lexemes = []) :
    lexemes = [] := by
  cases reads with
  | marked mark reads => cases none
  | plain unmarked reads => exact reads.eq_nil none

theorem kind {chars : List Char} {kind : TokenKind} (reads : FileLexes text lexemes after)
    (member : .token kind chars ∈ lexemes) :
    kind ≠ .eof ∧ (kind = .word → isName chars = true) := by
  cases reads with
  | marked mark reads =>
    rcases List.mem_cons.mp member with blank | later
    · cases blank
    · exact reads.kind later
  | plain unmarked reads => exact reads.kind member

end FileLexes

end Scaffold.Go
