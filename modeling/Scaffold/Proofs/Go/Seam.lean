import Mathlib.Data.List.TakeWhile
import Scaffold.Go.Lexeme

/-! Elements of a source do not depend on what follows them further on. -/

namespace Scaffold.Go

/-- The characters at which a seam may be: of what stands before them, only line comments go on. -/
def seamMarks : List Char :=
  ['\n', ']']

theorem forall_seamMarks {holds : Char → Prop} :
    (∀ c ∈ seamMarks, holds c) ↔ holds '\n' ∧ holds ']' := by
  simp [seamMarks]

/-- Texts that begin alike, as far as a mark for seams in the second or for three characters. -/
def Seam (first second : List Char) : Prop :=
  ∃ shared rest rest', first = shared ++ rest ∧ second = shared ++ rest' ∧
    ((∃ c ∈ seamMarks, rest'.head? = some c) ∨ 3 ≤ shared.length)

namespace Seam

/-- Texts behind a line break in the second one need nothing in common. -/
theorem of_break (first rest : List Char) : Seam first ('\n' :: rest) :=
  ⟨[], first, '\n' :: rest, rfl, rfl, .inl ⟨'\n', by simp [seamMarks], rfl⟩⟩

theorem of_three {shared : List Char} (enough : 3 ≤ shared.length) (rest rest' : List Char) :
    Seam (shared ++ rest) (shared ++ rest') :=
  ⟨shared, rest, rest', rfl, rfl, .inr enough⟩

/-- What stands in front of both texts does not matter. -/
theorem append {first second : List Char} (seam : Seam first second) (front : List Char) :
    Seam (front ++ first) (front ++ second) := by
  obtain ⟨shared, rest, rest', rfl, rfl, close⟩ := seam
  refine ⟨front ++ shared, rest, rest', by simp, by simp, close.imp_right fun enough => ?_⟩
  rw [List.length_append]
  omega

/-- Behind the end of the first text a mark for seams begins the second one. -/
theorem of_nil {second : List Char} (seam : Seam [] second) :
    ∃ c ∈ seamMarks, ∃ rest, second = c :: rest := by
  obtain ⟨shared, rest, rest', empty, rfl, close⟩ := seam
  obtain ⟨rfl, rfl⟩ := List.nil_eq_append_iff.mp empty
  rcases close with ⟨c, member, head⟩ | enough
  · exact ⟨c, member, List.head?_eq_some_iff.mp head⟩
  · simp at enough

/-- The texts begin with one character, or the second with a mark for seams. -/
theorem head {first second : List Char} (seam : Seam first second) :
    (∃ c ∈ seamMarks, second.head? = some c) ∨ second.head? = first.head? := by
  obtain ⟨shared, rest, rest', rfl, rfl, close⟩ := seam
  cases shared with
  | nil => exact .inl (by simpa using close)
  | cons c shared => exact .inr rfl

/-- A test that marks for seams fail holds of the second text's front only if it does of the
first's. -/
theorem head_fails {first second : List Char} (seam : Seam first second) {test : Char → Bool}
    (refuses : ∀ c ∈ seamMarks, test c = false) (fails : ∀ c, first.head? = some c → test c = false) :
    ∀ c, second.head? = some c → test c = false := by
  intro c is
  rcases seam.head with ⟨mark, member, first⟩ | same
  · rw [first] at is
    cases is
    exact refuses c member
  · exact fails c (same ▸ is)

end Seam

/-- A reader that divides the text, in a way that only depends on the seam behind what it takes. -/
structure Steady (reader : List Char → List Char × List Char) : Prop where
  whole : ∀ {text taken left : List Char}, reader text = (taken, left) → text = taken ++ left
  again : ∀ {text taken left left' : List Char}, reader text = (taken, left) → Seam left left' →
    reader (taken ++ left') = (taken, left')

/-- What a reader takes and what it leaves make up the text. -/
theorem Steady.parts {reader : List Char → List Char × List Char} (steady : Steady reader)
    (text : List Char) : text = (reader text).1 ++ (reader text).2 :=
  steady.whole rfl

/-- What a reader takes it takes again in front of another text behind the seam. -/
theorem Steady.retake {reader : List Char → List Char × List Char} (steady : Steady reader)
    (text : List Char) {left' : List Char} (seam : Seam (reader text).2 left') :
    reader ((reader text).1 ++ left') = ((reader text).1, left') :=
  steady.again rfl seam

/-- What a reader takes, together with what another takes behind it. -/
def inTurn (first second : List Char → List Char × List Char) (text : List Char) :
    List Char × List Char :=
  ((first text).1 ++ (second (first text).2).1, (second (first text).2).2)

theorem Steady.inTurn {first second : List Char → List Char × List Char} (one : Steady first)
    (other : Steady second) : Steady (inTurn first second) := by
  constructor
  · intro text taken left read
    cases read
    rw [List.append_assoc, ← other.whole rfl, ← one.whole rfl]
  · intro text taken left left' read seam
    cases read
    have behind := other.again rfl seam
    have through : Seam (first text).2 ((second (first text).2).1 ++ left') := by
      have split : (first text).2 = (second (first text).2).1 ++ (second (first text).2).2 :=
        other.whole rfl
      have joined := seam.append (second (first text).2).1
      rwa [← split] at joined
    have front := one.again rfl through
    rw [Go.inTurn, List.append_assoc, front, behind]

section Runs

variable {test : Char → Bool} {run rest : List Char}

/-- Characters that pass a test are taken up to one that fails it. -/
theorem takeWhile_run (inside : ∀ c ∈ run, test c = true)
    (stops : ∀ c, rest.head? = some c → test c = false) : (run ++ rest).takeWhile test = run := by
  rw [List.takeWhile_append_of_pos inside]
  cases rest with
  | nil => simp
  | cons c rest => simp [stops c rfl]

/-- Nothing is left out in front of a character that fails the test. -/
theorem dropWhile_stops (stops : ∀ c, rest.head? = some c → test c = false) :
    rest.dropWhile test = rest := by
  cases rest with
  | nil => rfl
  | cons c rest => rw [List.dropWhile_cons_of_neg (by simp [stops c rfl])]

/-- Characters that pass a test are left out up to one that fails it. -/
theorem dropWhile_run (inside : ∀ c ∈ run, test c = true)
    (stops : ∀ c, rest.head? = some c → test c = false) : (run ++ rest).dropWhile test = rest := by
  rw [List.dropWhile_append_of_pos inside, dropWhile_stops stops]

/-- The longest run of characters that pass a test ends in front of one that fails it. -/
theorem leadingRun_run (inside : ∀ c ∈ run, test c = true)
    (stops : ∀ c, rest.head? = some c → test c = false) :
    leadingRun test (run ++ rest) = (run, rest) := by
  rw [leadingRun, takeWhile_run inside stops, dropWhile_run inside stops]

end Runs

/-- The longest run of characters passing a test ends in front of whatever fails the test. -/
theorem leadingRun_again {test : Char → Bool} {text left' : List Char}
    (stops : ∀ c, left'.head? = some c → test c = false) :
    leadingRun test ((leadingRun test text).1 ++ left') = ((leadingRun test text).1, left') :=
  leadingRun_run (fun _ member => List.mem_takeWhile_imp member) stops

/-- What the longest run leaves begins with a character that fails the test. -/
theorem leadingRun_stops (test : Char → Bool) {text : List Char} {c : Char}
    (is : (leadingRun test text).2.head? = some c) : test c = false := by
  have stops := List.head?_dropWhile_not test text
  rw [leadingRun] at is
  rw [is] at stops
  simpa using stops

/-- The longest run of characters passing a test is steady if marks for seams fail the test. -/
theorem steady_leadingRun {test : Char → Bool} (refuses : ∀ c ∈ seamMarks, test c = false) :
    Steady (leadingRun test) := by
  constructor
  · intro text taken left read
    cases read
    exact List.takeWhile_append_dropWhile.symm
  · intro text taken left left' read seam
    cases read
    exact leadingRun_again (seam.head_fails refuses fun c is => leadingRun_stops test is)

/-- What a reader takes behind one character, if the text begins with that character. -/
def behindMark (mark : Char) (inner : List Char → List Char × List Char) :
    List Char → List Char × List Char
  | [] => ([], [])
  | c :: rest => if c = mark then (c :: (inner rest).1, (inner rest).2) else ([], c :: rest)

theorem steady_behindMark {mark : Char} {inner : List Char → List Char × List Char}
    (unmarked : mark ∉ seamMarks) (steady : Steady inner) : Steady (behindMark mark inner) := by
  constructor
  · intro text taken left read
    cases text with
    | nil => cases read; rfl
    | cons c rest =>
      rw [behindMark] at read
      split at read <;> cases read
      · exact congrArg (c :: ·) (steady.whole rfl)
      · rfl
  · intro text taken left left' read seam
    have untaken : (∀ c, left.head? = some c → c ≠ mark) →
        behindMark mark inner left' = ([], left') := by
      intro other
      have fails : ∀ c, left'.head? = some c → (c == mark) = false :=
        seam.head_fails (fun c member => by
          rw [beq_eq_false_iff_ne]
          rintro rfl
          exact unmarked member) (by simpa using other)
      cases left' with
      | nil => rfl
      | cons c rest => rw [behindMark, if_neg (by simpa using fails c rfl)]
    cases text with
    | nil =>
      cases read
      exact untaken (by simp)
    | cons c rest =>
      rw [behindMark] at read
      split at read <;> rename_i is <;> cases read
      · have again := steady.retake rest seam
        rw [List.cons_append, behindMark, if_pos is, again]
      · exact untaken (by simpa using is)

/-- A reader that takes nothing is steady. -/
theorem steady_nothing : Steady fun text => ([], text) :=
  ⟨fun read => by cases read; rfl, fun read _ => by cases read; rfl⟩

/-- The imaginary unit behind what has been read of a number. -/
private theorem imaginary_eq (front rest : List Char) :
    (match rest with
      | 'i' :: after => (front ++ ['i'], after)
      | after => (front, after)) = (front ++ (behindMark 'i' (fun text => ([], text)) rest).1,
        (behindMark 'i' (fun text => ([], text)) rest).2) := by
  split
  · rfl
  · rename_i other
    cases rest with
    | nil => simp [behindMark]
    | cons c rest =>
      have differs : c ≠ 'i' := by
        rintro rfl
        exact other rest rfl
      rw [behindMark, if_neg differs, List.append_nil]

/-- The fraction of a number, which stands behind a point. -/
private theorem fraction_eq (digit : Char → Bool) (rest : List Char) :
    (match rest with
      | '.' :: more => ('.' :: (leadingRun digit more).1, (leadingRun digit more).2)
      | other => ([], other)) = behindMark '.' (leadingRun digit) rest := by
  split
  · rfl
  · rename_i other
    cases rest with
    | nil => rfl
    | cons c rest =>
      have differs : c ≠ '.' := by
        rintro rfl
        exact other rest rfl
      rw [behindMark, if_neg differs]

/-- A number is read in turn from its digits, its fraction, its exponent and the imaginary unit. -/
theorem numberTail_eq (digit : Char → Bool) (letters : List Char) :
    numberTail digit letters =
      inTurn (inTurn (inTurn (leadingRun digit) (behindMark '.' (leadingRun digit)))
        (exponent letters)) (behindMark 'i' fun text => ([], text)) := by
  funext text
  simp only [inTurn, ← imaginary_eq, ← fraction_eq]
  rfl

/-- Whether a text begins with an exponent. -/
def beginsExponent (letters : List Char) : List Char → Bool
  | e :: sign :: digit :: _ =>
    letters.contains e && ((sign == '+' || sign == '-') && digit.isDigit || sign.isDigit)
  | [e, digit] => letters.contains e && digit.isDigit
  | _ => false

theorem exponent_of_not_begins {letters text : List Char}
    (not : beginsExponent letters text = false) : exponent letters text = ([], text) := by
  unfold exponent
  split
  · rename_i e sign digit rest
    rw [beginsExponent] at not
    revert not
    cases letters.contains e <;> cases sign == '+' || sign == '-' <;> cases digit.isDigit <;>
      cases sign.isDigit <;> simp
  · rename_i e digit
    rw [beginsExponent] at not
    rw [not]
    rfl
  · rfl

/-- What begins no exponent on one side of a seam begins none on the other. -/
theorem Seam.beginsExponent {letters first second : List Char} (seam : Seam first second)
    (unmarked : ∀ c ∈ seamMarks, letters.contains c = false)
    (not : beginsExponent letters first = false) : beginsExponent letters second = false := by
  obtain ⟨shared, rest, rest', rfl, rfl, close⟩ := seam
  have marked : shared.length < 3 → ∃ c more, rest' = c :: more ∧ letters.contains c = false ∧
      c.isDigit = false ∧ c ≠ '+' ∧ c ≠ '-' := by
    intro short
    rcases close with ⟨c, member, head⟩ | enough
    · obtain ⟨more, rfl⟩ := List.head?_eq_some_iff.mp head
      have plain : ∀ c ∈ seamMarks, c.isDigit = false ∧ c ≠ '+' ∧ c ≠ '-' :=
        forall_seamMarks.mpr (by decide)
      exact ⟨c, more, rfl, unmarked c member, plain c member⟩
    · omega
  -- A mark for seams is no letter, no sign and no digit.
  rcases shared with _ | ⟨e, _ | ⟨sign, _ | ⟨digit, shared⟩⟩⟩
  · obtain ⟨c, more, rfl, letter, -⟩ := marked (by simp)
    rcases more with _ | ⟨_, _ | ⟨_, _⟩⟩ <;> simp_all [Go.beginsExponent]
  · obtain ⟨c, more, rfl, -, digit, plus, minus⟩ := marked (by simp)
    rcases more with _ | ⟨_, _⟩ <;> simp [Go.beginsExponent, digit, plus, minus]
  · obtain ⟨c, more, rfl, -, digit, -⟩ := marked (by simp)
    rcases rest with _ | ⟨_, _⟩ <;> simp_all [Go.beginsExponent]
  · simpa [Go.beginsExponent] using not

/-- An exponent without a sign reaches as far as the digits behind its first one. -/
private theorem exponent_unsigned {letters taken text left : List Char} {e digit : Char}
    (unsigned : (letters.contains e && digit.isDigit) = true)
    (digits : leadingRun isDigitOrLine text = (taken, left)) :
    exponent letters (e :: digit :: text) = (e :: digit :: taken, left) := by
  have noSign : (digit == '+' || digit == '-') = false := by
    simp only [Bool.and_eq_true] at unsigned
    rw [Bool.or_eq_false_iff, beq_eq_false_iff_ne, beq_eq_false_iff_ne]
    constructor <;> rintro rfl <;> exact absurd unsigned.2 (by decide)
  cases text with
  | nil =>
    cases digits
    rw [exponent, if_pos unsigned]
    rfl
  | cons c rest =>
    rw [exponent, noSign, Bool.and_false, Bool.false_and, if_neg Bool.false_ne_true, if_pos unsigned,
      digits]

theorem steady_exponent {letters : List Char}
    (unmarked : ∀ c ∈ seamMarks, letters.contains c = false) : Steady (exponent letters) := by
  have digits : Steady (leadingRun isDigitOrLine) :=
    steady_leadingRun (forall_seamMarks.mpr (by decide))
  constructor
  · intro text taken left read
    unfold exponent at read
    split at read
    · split at read
      · cases read
        simp
      · split at read <;> cases read
        · simp
        · rfl
    · split at read <;> cases read <;> rfl
    · cases read
      rfl
  · intro text taken left left' read seam
    have untaken : ∀ text, beginsExponent letters text = false → exponent letters text = (taken, left) →
        exponent letters (taken ++ left') = (taken, left') := by
      intro text not same
      rw [exponent_of_not_begins not] at same
      cases same
      exact exponent_of_not_begins (seam.beginsExponent unmarked not)
    by_cases begins : beginsExponent letters text = true
    · unfold beginsExponent at begins
      split at begins
      · rename_i e sign digit rest
        rw [exponent] at read
        split at read <;> rename_i signed
        · cases read
          have again : leadingRun isDigitOrLine (rest.takeWhile isDigitOrLine ++ left') = _ :=
            digits.retake rest seam
          rw [List.cons_append, List.cons_append, List.cons_append, exponent, if_pos signed, again]
          rfl
        · have unsigned : (letters.contains e && sign.isDigit) = true := by
            revert begins signed
            cases letters.contains e <;> cases sign == '+' || sign == '-' <;>
              cases digit.isDigit <;> cases sign.isDigit <;> simp
          rw [if_pos unsigned] at read
          cases read
          have again := digits.retake (digit :: rest) seam
          exact exponent_unsigned unsigned again
      · rename_i e digit
        rw [exponent, if_pos begins] at read
        cases read
        obtain ⟨c, member, more, rfl⟩ := seam.of_nil
        have plain : ∀ c ∈ seamMarks, isDigitOrLine c = false :=
          forall_seamMarks.mpr (by decide)
        have stops : ¬isDigitOrLine c = true := by simp [plain c member]
        refine exponent_unsigned begins ?_
        show leadingRun isDigitOrLine (c :: more) = ([], c :: more)
        rw [leadingRun, List.takeWhile_cons_of_neg stops, List.dropWhile_cons_of_neg stops]
      · cases begins
    · exact untaken text (by simpa using begins) read

/-- The digits of a number with all that may follow them are read up to a seam. -/
theorem steady_numberTail {digit : Char → Bool} {letters : List Char}
    (refuses : ∀ c ∈ seamMarks, digit c = false)
    (unmarked : ∀ c ∈ seamMarks, letters.contains c = false) :
    Steady (numberTail digit letters) := by
  rw [numberTail_eq]
  have digits := steady_leadingRun refuses
  have fraction : Steady (behindMark '.' (leadingRun digit)) := steady_behindMark (by decide) digits
  have unit : Steady (behindMark 'i' fun text => ([], text)) :=
    steady_behindMark (by decide) steady_nothing
  exact ((digits.inTurn fraction).inTurn (steady_exponent unmarked)).inTurn unit

/-- Whether a text begins like a number in another base than ten. -/
def beginsBased : List Char → Bool
  | '0' :: base :: _ => ['x', 'X', 'b', 'B', 'o', 'O'].contains base
  | _ => false

theorem Seam.beginsBased {first second : List Char} (seam : Seam first second)
    (not : beginsBased first = false) : beginsBased second = false := by
  obtain ⟨shared, rest, rest', rfl, rfl, close⟩ := seam
  have marked : shared.length < 2 → ∃ c more, rest' = c :: more ∧ c ≠ '0' ∧
      c ∉ ['x', 'X', 'b', 'B', 'o', 'O'] := by
    intro short
    rcases close with ⟨c, member, head⟩ | enough
    · obtain ⟨more, rfl⟩ := List.head?_eq_some_iff.mp head
      have plain : ∀ c ∈ seamMarks, c ≠ '0' ∧ c ∉ ['x', 'X', 'b', 'B', 'o', 'O'] :=
        forall_seamMarks.mpr (by decide)
      exact ⟨c, more, rfl, plain c member⟩
    · omega
  rcases shared with _ | ⟨zero, _ | ⟨base, shared⟩⟩
  · obtain ⟨c, more, rfl, differs, -⟩ := marked (by simp)
    simp [Go.beginsBased, differs]
  · obtain ⟨c, more, rfl, -, differs⟩ := marked (by simp)
    by_cases is : zero = '0'
    · subst is
      simpa [Go.beginsBased] using differs
    · simp [Go.beginsBased, is]
  · by_cases is : zero = '0'
    · subst is
      exact not
    · simp [Go.beginsBased, is]

/-- The digits of a number in base two or eight, perhaps with the imaginary unit behind them. -/
def binaryTail : List Char → List Char × List Char :=
  inTurn (leadingRun isDigitOrLine) (behindMark 'i' fun text => ([], text))

private theorem steady_binaryTail : Steady binaryTail :=
  (steady_leadingRun (forall_seamMarks.mpr (by decide))).inTurn (steady_behindMark (by decide) steady_nothing)

theorem numberText_based {base : Char} {rest : List Char}
    (based : ['x', 'X', 'b', 'B', 'o', 'O'].contains base = true) :
    numberText ('0' :: base :: rest) = if base = 'x' ∨ base = 'X' then
        ('0' :: base :: (numberTail isHexOrLine ['p', 'P'] rest).1,
          (numberTail isHexOrLine ['p', 'P'] rest).2)
      else ('0' :: base :: (binaryTail rest).1, (binaryTail rest).2) := by
  rw [numberText]
  by_cases is : base = 'x' ∨ base = 'X'
  · rw [if_pos (by simpa using is), if_pos is]
  · have others : ['b', 'B', 'o', 'O'].contains base = true := by
      simp only [List.contains_cons, Bool.or_eq_true, beq_iff_eq] at based ⊢
      rcases based with lower | upper | others
      · exact absurd (.inl lower) is
      · exact absurd (.inr upper) is
      · exact others
    rw [if_neg (by simpa using is), if_pos others, if_neg is]
    exact imaginary_eq ('0' :: base :: (leadingRun isDigitOrLine rest).1) _

theorem numberText_of_not_based {text : List Char} (not : beginsBased text = false) :
    numberText text = numberTail isDigitOrLine ['e', 'E'] text := by
  unfold numberText
  split
  · rename_i base rest
    have differs : base ∉ ['x', 'X', 'b', 'B', 'o', 'O'] := by simpa [beginsBased] using not
    simp only [List.mem_cons, List.not_mem_nil, or_false, not_or] at differs
    rw [if_neg (by simp [differs]), if_neg (by simp [differs])]
  · rfl

theorem steady_numberText : Steady numberText := by
  have decimal : Steady (numberTail isDigitOrLine ['e', 'E']) :=
    steady_numberTail (forall_seamMarks.mpr (by decide)) (forall_seamMarks.mpr (by decide))
  have hexadecimal : Steady (numberTail isHexOrLine ['p', 'P']) :=
    steady_numberTail (forall_seamMarks.mpr (by decide)) (forall_seamMarks.mpr (by decide))
  have binary : Steady binaryTail := steady_binaryTail
  constructor
  · intro text taken left read
    by_cases based : beginsBased text = true
    · unfold beginsBased at based
      split at based
      · rename_i base rest
        rw [numberText_based based] at read
        split at read <;> cases read
        · exact congrArg ('0' :: base :: ·) (hexadecimal.whole rfl)
        · exact congrArg ('0' :: base :: ·) (binary.whole rfl)
      · cases based
    · rw [numberText_of_not_based (by simpa using based)] at read
      exact decimal.whole read
  · intro text taken left left' read seam
    by_cases based : beginsBased text = true
    · unfold beginsBased at based
      split at based
      · rename_i base rest
        rw [numberText_based based] at read
        split at read <;> rename_i is <;> obtain ⟨rfl, rfl⟩ := Prod.mk.inj read
        · have again := hexadecimal.retake rest seam
          rw [List.cons_append, List.cons_append, numberText_based based, if_pos is, again]
        · have again := binary.retake rest seam
          rw [List.cons_append, List.cons_append, numberText_based based, if_neg is, again]
      · cases based
    · have not : beginsBased text = false := by simpa using based
      rw [numberText_of_not_based not] at read
      have through := seam.append taken
      rw [← decimal.whole read] at through
      rw [numberText_of_not_based (through.beginsBased not), decimal.again read seam]

/-- No mark is longer than three characters, or holds a mark for seams behind its first one. -/
private theorem marks_short : ∀ mark ∈ marks, mark.toList.length ≤ 3 ∧
    ∀ c ∈ seamMarks, c ∉ mark.toList.tail := by
  simp only [forall_seamMarks]
  decide

theorem markText_ne_nil {text left : List Char} : markText text ≠ some ([], left) := by
  intro read
  obtain ⟨mark, found, same⟩ := Option.map_eq_some_iff.mp read
  have filled : ∀ mark ∈ marks, mark.toList ≠ [] := by decide
  exact filled mark (List.mem_of_find?_eq_some found) (Prod.mk.inj same).1

/-- A short text without marks for seams behind its first character leads on both sides of a seam
behind some character, or on neither. -/
theorem Seam.leads {first second lead : List Char} {d : Char} (seam : Seam first second)
    (short : lead.length ≤ 3) (unmarked : ∀ c ∈ seamMarks, c ∉ lead.tail)
    (leads : lead <+: d :: second) : lead <+: d :: first := by
  obtain ⟨shared, rest, rest', rfl, rfl, close⟩ := seam
  suffices within : lead <+: d :: shared from
    within.trans (by rw [← List.cons_append]; exact List.prefix_append _ _)
  rcases Nat.lt_or_ge (shared.length + 1) lead.length with long | enough
  · rcases close with ⟨c, member, head⟩ | three
    · obtain ⟨more, rfl⟩ := List.head?_eq_some_iff.mp head
      have marked : d :: shared ++ [c] <+: d :: (shared ++ c :: more) := by simp
      have reaches := List.prefix_of_prefix_length_le marked leads (by
        rw [List.length_append, List.length_singleton, List.length_cons]
        exact long)
      -- The mark for seams stands behind the first character, and so in the tail.
      obtain ⟨back, rfl⟩ := reaches
      exact absurd (by simp) (unmarked c member)
    · omega
  · exact List.prefix_of_prefix_length_le leads
      (by rw [← List.cons_append]; exact List.prefix_append _ _) (by simpa using enough)

/-- The longest mark in front of a text is the same behind any seam. -/
theorem steady_markText {text taken left left' : List Char}
    (read : markText text = some (taken, left)) (seam : Seam left left') :
    text = taken ++ left ∧ markText (taken ++ left') = some (taken, left') := by
  obtain ⟨mark, found, same⟩ := Option.map_eq_some_iff.mp read
  cases same
  obtain ⟨leads, before, behind, split, passed⟩ := List.find?_eq_some_iff_append.mp found
  have whole : text = mark.toList ++ text.drop mark.toList.length :=
    (List.prefix_iff_eq_append.mp (List.isPrefixOf_iff_prefix.mp leads)).symm
  refine ⟨whole, ?_⟩
  rw [markText, Option.map_eq_some_iff]
  refine ⟨mark, List.find?_eq_some_iff_append.mpr ⟨?_, before, behind, split, ?_⟩, by simp⟩
  · exact List.isPrefixOf_iff_prefix.mpr (List.prefix_append _ _)
  · intro longer member
    obtain ⟨short, unmarked⟩ := marks_short longer (split ▸ List.mem_append_left _ member)
    have fails := passed longer member
    rw [whole] at fails
    have filled : ∀ mark ∈ marks, mark.toList ≠ [] := by decide
    obtain ⟨d, front, head⟩ :=
      List.exists_cons_of_ne_nil (filled mark (List.mem_of_find?_eq_some found))
    by_contra longer
    simp only [Bool.not_eq_true', Bool.not_eq_false, List.isPrefixOf_iff_prefix] at longer
    have through : _ <+: d :: (front ++ text.drop mark.toList.length) :=
      (seam.append front).leads short unmarked (by rwa [head] at longer)
    rw [← List.cons_append, ← head, ← List.isPrefixOf_iff_prefix] at through
    rw [through] at fails
    cases fails

end Scaffold.Go
