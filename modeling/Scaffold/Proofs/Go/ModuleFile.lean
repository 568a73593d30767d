import Scaffold.Go.Loading
import Scaffold.Proofs.Go.ImportPath
import Scaffold.Proofs.Cli.System
import Scaffold.Proofs.Go.Seam

/-! Module files: the directive that names the module is found among the other lines, unless a
comment follows it. -/

namespace Scaffold.Go

open Unicode (isBlank)

/-- The word a module directive begins with. -/
def moduleKeyword : List Char :=
  "module".toList

/-- Blanks that do not leave their line. -/
def AreBlanks (text : List Char) : Prop :=
  ∀ c ∈ text, isBlank c = true ∧ c ≠ '\n'

instance (text : List Char) : Decidable (AreBlanks text) :=
  List.decidableBAll _ text

/-- The quote on either side of the path of a directive, if there is one. -/
def quoteIf (isQuoted : Bool) : List Char :=
  if isQuoted then ['"'] else []

/-- A line of a module file that does not begin with the word of the module directive. -/
structure IsOtherLine (line : List Char) : Prop where
  unbroken : '\n' ∉ line
  other : ∀ lead rest, line = lead ++ moduleKeyword ++ rest → AreBlanks lead →
    ∃ c, rest.head? = some c ∧ isBlank c = false

/-- A module file: one line with the directive that names the module, behind lines of comments, of
other directives and of nothing, and in front of any lines. -/
structure ModuleFile where
  before : List (List Char)
  lead : List Char
  gap : List Char
  isQuoted : Bool
  path : List Char
  trail : List Char
  /-- What follows the two slashes of a comment on the line of the directive. -/
  comment : Option (List Char)
  after : List (List Char)
  others : ∀ line ∈ before, IsOtherLine line
  leadBlank : AreBlanks lead
  gapBlank : AreBlanks gap
  apart : gap ≠ []
  named : path ≠ []
  pathChars : ∀ c ∈ path, isModulePathChar c = true
  /-- No element of a path is empty; without quotes two slashes begin a comment. -/
  pathPlain : ¬['/', '/'] <:+: path
  trailBlank : AreBlanks trail
  commentUnbroken : ∀ text, comment = some text → '\n' ∉ text
  afterUnbroken : ∀ line ∈ after, '\n' ∉ line

namespace ModuleFile

/-- The comment on the line of the directive, if there is one. -/
def note (file : ModuleFile) : List Char :=
  match file.comment with
  | none => []
  | some text => '/' :: '/' :: text

/-- The line of the directive. -/
def directive (file : ModuleFile) : List Char :=
  file.lead ++ moduleKeyword ++ file.gap ++ quoteIf file.isQuoted ++ file.path ++
    (quoteIf file.isQuoted ++ file.trail ++ file.note)

/-- The text of the file. -/
def text (file : ModuleFile) : String :=
  String.ofList (joinWith ['\n'] (file.before ++ file.directive :: file.after))

end ModuleFile

section Lines

/-- What follows on a line, behind a break each. -/
def behindLine (lines : List (List Char)) : List Char :=
  lines.flatMap fun line => '\n' :: line

/-- Lines put together are a line and what follows on it. -/
theorem joinWith_break (line : List Char) (lines : List (List Char)) :
    joinWith ['\n'] (line :: lines) = line ++ behindLine lines := by
  -- A break goes between two lines, so it can be counted to the second of them.
  induction lines generalizing line with
  | nil => simp [joinWith, behindLine]
  | cons next more ih =>
    rw [joinWith, ih next]
    simp [behindLine]

/-- The first module directive that a text begins with here or behind one of its breaks. -/
def firstDirective? (text : List Char) : Option (List Char) :=
  (text :: behindBreaks text).findSome? directivePath?

/-- Nothing begins inside a line. -/
theorem behindBreaks_append {line : List Char} (unbroken : '\n' ∉ line) (rest : List Char) :
    behindBreaks (line ++ rest) = behindBreaks rest := by
  induction line with
  | nil => rfl
  | cons c line ih =>
    rw [List.mem_cons, not_or] at unbroken
    obtain ⟨other, unbroken⟩ := unbroken
    rw [List.cons_append, behindBreaks, if_neg (by simpa using Ne.symm other), ih unbroken]

/-- A line is looked at where it begins, and then the lines that follow it are. -/
theorem firstDirective?_line {line : List Char} (unbroken : '\n' ∉ line) (next : List Char)
    (more : List (List Char)) :
    firstDirective? (line ++ behindLine (next :: more)) =
      (directivePath? (line ++ behindLine (next :: more))).or
        (firstDirective? (next ++ behindLine more)) := by
  -- The first break is the one behind the line.
  have breaks : behindBreaks (line ++ behindLine (next :: more)) =
      (next ++ behindLine more) :: behindBreaks (next ++ behindLine more) := by
    rw [behindBreaks_append unbroken]
    rfl
  rw [firstDirective?, breaks, List.findSome?_cons]
  cases directivePath? (line ++ behindLine (next :: more)) <;> rfl

/-- The last line is looked at only where it begins. -/
theorem firstDirective?_last {line : List Char} (unbroken : '\n' ∉ line) :
    firstDirective? line = directivePath? line := by
  have breaks : behindBreaks line = [] := by
    have none := behindBreaks_append unbroken []
    rwa [List.append_nil] at none
  rw [firstDirective?, breaks, List.findSome?_cons]
  cases directivePath? line <;> rfl

end Lines

section Directives

/-- Whether a line ends behind blanks. -/
def endsLine (text : List Char) : Bool :=
  (leadingRun isBlank text).1.contains '\n' || (leadingRun isBlank text).2.isEmpty

/-- No character of a path is blank. -/
theorem isBlank_of_isModulePathChar {c : Char} (inside : isModulePathChar c = true) :
    isBlank c = false := by
  rw [isModulePathChar, Bool.and_eq_true, Bool.not_eq_true'] at inside
  exact inside.1

/-- A quote is skipped in front of what begins with none. -/
theorem skipQuote_quoteIf (isQuoted : Bool) {rest : List Char}
    (plain : rest.head? ≠ some '"') :
    skipQuote (quoteIf isQuoted ++ rest) = rest := by
  cases isQuoted with
  | true => rfl
  | false =>
    cases rest with
    | nil => rfl
    | cons c rest =>
      have other : c ≠ '"' := fun same => plain (congrArg some same)
      have leads : ['"'].isPrefixOf (c :: rest) = false := by
        simpa [List.isPrefixOf] using fun same : '"' = c => other same.symm
      show skipQuote (c :: rest) = c :: rest
      rw [skipQuote, afterPrefix?, leads]
      rfl

/-- A directive is read up to what cannot belong to its path, and counts if its line ends there. -/
theorem directivePath?_directive {lead gap path rest : List Char} (isQuoted : Bool)
    (leadBlank : AreBlanks lead) (gapBlank : AreBlanks gap) (apart : gap ≠ []) (named : path ≠ [])
    (chars : ∀ c ∈ path, isModulePathChar c = true)
    (stops : ∀ c, rest.head? = some c → isModulePathChar c = false) :
    directivePath? (lead ++ moduleKeyword ++ gap ++ quoteIf isQuoted ++ path ++ rest) =
      if endsLine (skipQuote rest) then some path else none := by
  -- What stands behind the gap begins with a quote or with the path, so it is no blank.
  have solid : ∀ c, (quoteIf isQuoted ++ path ++ rest).head? = some c → isBlank c = false := by
    intro c head
    cases isQuoted with
    | true =>
      cases head
      decide
    | false =>
      cases path with
      | nil => exact absurd rfl named
      | cons d path =>
        cases head
        exact isBlank_of_isModulePathChar (chars _ List.mem_cons_self)
  have keyword : (lead ++ (moduleKeyword ++ (gap ++ (quoteIf isQuoted ++ path ++ rest)))).dropWhile
      isBlank = moduleKeyword ++ (gap ++ (quoteIf isQuoted ++ path ++ rest)) := by
    refine dropWhile_run (fun c member => (leadBlank c member).1) fun c head => ?_
    cases head
    decide
  have body : (gap ++ (quoteIf isQuoted ++ path ++ rest)).dropWhile isBlank =
      quoteIf isQuoted ++ path ++ rest :=
    dropWhile_run (fun c member => (gapBlank c member).1) solid
  have bare : skipQuote (quoteIf isQuoted ++ path ++ rest) = path ++ rest := by
    rw [List.append_assoc]
    refine skipQuote_quoteIf isQuoted fun head => ?_
    cases path with
    | nil => exact named rfl
    | cons c path =>
      cases head
      exact absurd (chars '"' List.mem_cons_self) (by decide)
  have shorter : (quoteIf isQuoted ++ path ++ rest).length <
      (gap ++ (quoteIf isQuoted ++ path ++ rest)).length := by
    have some := List.length_pos_iff.mpr apart
    simp only [List.length_append]
    omega
  have some : path.isEmpty = false := by simpa using named
  rw [directivePath?, List.append_assoc, List.append_assoc, List.append_assoc, List.append_assoc,
    ← List.append_assoc (quoteIf isQuoted), keyword, ← moduleKeyword, afterPrefix?_append]
  simp only [Option.bind_eq_bind, Option.bind_some, body, bare, leadingRun_run chars stops,
    shorter, some, decide_true, Bool.not_false, Bool.true_and]
  rfl

/-- Blanks in front of a text do not change the directive it begins with. -/
theorem directivePath?_blanks {blanks : List Char} (blank : ∀ c ∈ blanks, isBlank c = true)
    (text : List Char) : directivePath? (blanks ++ text) = directivePath? text := by
  rw [directivePath?, directivePath?, List.dropWhile_append_of_pos blank]

/-- Without a blank behind its word there is no directive. -/
theorem directivePath?_glued {behind : List Char}
    (solid : ∀ c, behind.head? = some c → isBlank c = false) :
    directivePath? (moduleKeyword ++ behind) = none := by
  -- The search wants to leave out at least one blank behind the word.
  have body : behind.dropWhile isBlank = behind := dropWhile_stops solid
  have keyword : (moduleKeyword ++ behind).dropWhile isBlank = moduleKeyword ++ behind := by
    refine dropWhile_stops fun c head => ?_
    cases head
    decide
  rw [directivePath?, keyword, ← moduleKeyword, afterPrefix?_append]
  simp [body]

/-- The word of the directive does not reach beyond the line it begins. -/
theorem exists_of_append_eq_keyword {line rest more : List Char}
    (breaks : ∀ c, rest.head? = some c → c = '\n') (whole : line ++ rest = moduleKeyword ++ more) :
    ∃ behind, line = moduleKeyword ++ behind ∧ more = behind ++ rest := by
  -- Either the line ends inside the word, or the word inside the line.
  rcases List.append_eq_append_iff.mp whole with ⟨missing, split, beyond⟩ | ⟨behind, split, beyond⟩
  · cases missing with
    | nil => exact ⟨[], by simpa using split.symm, beyond.symm⟩
    | cons c missing =>
      -- The break behind the line would stand in the word.
      obtain rfl := breaks c (by rw [beyond]; rfl)
      have inside : '\n' ∈ moduleKeyword := split ▸ List.mem_append_right _ List.mem_cons_self
      exact absurd inside (by decide)
  · exact ⟨behind, split, beyond⟩

/-- A line that does not begin with the word of the directive is none, whatever follows it; if there
are only blanks on it, what follows it may be one. -/
theorem IsOtherLine.directivePath? {line rest : List Char} (is : IsOtherLine line)
    (breaks : ∀ c, rest.head? = some c → c = '\n') :
    Go.directivePath? (line ++ rest) = none ∨
      Go.directivePath? (line ++ rest) = Go.directivePath? rest := by
  -- The blanks that the line begins with are left out, and the rest of it decides.
  have blank : ∀ c ∈ line.takeWhile isBlank, isBlank c = true := fun c member =>
    List.mem_takeWhile_imp member
  have split : line.takeWhile isBlank ++ line.dropWhile isBlank = line :=
    List.takeWhile_append_dropWhile
  rw [← split, List.append_assoc, directivePath?_blanks blank]
  cases solid : line.dropWhile isBlank with
  | nil => exact .inr rfl
  | cons c more =>
    refine .inl ?_
    have start : isBlank c = false := by
      have stops := List.head?_dropWhile_not isBlank line
      rw [solid] at stops
      simpa using stops
    have here : (c :: more ++ rest).dropWhile isBlank = c :: more ++ rest :=
      List.dropWhile_cons_of_neg (by simp [start])
    cases leads : afterPrefix? moduleKeyword (c :: more ++ rest) with
    | none =>
      rw [Go.directivePath?, here, ← moduleKeyword, leads]
      rfl
    | some behind =>
      obtain ⟨word, whole, rfl⟩ :=
        exists_of_append_eq_keyword breaks (eq_of_afterPrefix? leads)
      -- The line goes on behind the word, and not with a blank.
      obtain ⟨d, head, plain⟩ := is.other (line.takeWhile isBlank) word
        (by rw [List.append_assoc, ← whole, ← solid, split])
        fun d member => ⟨blank d member, fun same => is.unbroken
          (same ▸ List.takeWhile_subset _ member)⟩
      rw [eq_of_afterPrefix? leads]
      refine directivePath?_glued fun e first => ?_
      rw [List.head?_append, head] at first
      cases first
      exact plain

end Directives

section Search

/-- What follows on a line begins with a break. -/
theorem head_behindLine (lines : List (List Char)) :
    ∀ c, (behindLine lines).head? = some c → c = '\n' := by
  intro c head
  cases lines with
  | nil => cases head
  | cons line more => exact (Option.some.inj head).symm

/-- In front of other lines a line that is not a directive makes no difference. -/
theorem IsOtherLine.firstDirective? {line : List Char} (is : IsOtherLine line)
    (next : List Char) (more : List (List Char)) :
    Go.firstDirective? (line ++ behindLine (next :: more)) =
      Go.firstDirective? (next ++ behindLine more) := by
  rw [firstDirective?_line is.unbroken]
  rcases is.directivePath? (head_behindLine (next :: more)) with none | blank
  · rw [none, Option.none_or]
  · -- Behind blanks the search has already come to the next line.
    have same : Go.directivePath? (behindLine (next :: more)) =
        Go.directivePath? (next ++ behindLine more) :=
      @directivePath?_blanks ['\n'] (List.forall_mem_singleton.mpr (by decide)) _
    rw [blank, same, Go.firstDirective?, List.findSome?_cons]
    cases Go.directivePath? (next ++ behindLine more) <;> rfl

/-- Lines that are no directives are passed over. -/
theorem firstDirective?_others {before : List (List Char)}
    (others : ∀ line ∈ before, IsOtherLine line) (next : List Char) (more : List (List Char)) :
    firstDirective? (joinWith ['\n'] (before ++ next :: more)) =
      firstDirective? (next ++ behindLine more) := by
  -- One line after the other goes.
  induction before with
  | nil => rw [List.nil_append, joinWith_break]
  | cons line before ih =>
    obtain ⟨head, tail⟩ := List.forall_mem_cons.mp others
    rw [← ih tail, List.cons_append, joinWith_break]
    cases before with
    | nil => rw [List.nil_append, joinWith_break, head.firstDirective?]
    | cons second before => rw [List.cons_append, joinWith_break, head.firstDirective?]

/-- Among lines that are no directives there is none to be found. -/
theorem firstDirective?_none {line : List Char} {more : List (List Char)}
    (others : ∀ other ∈ line :: more, IsOtherLine other) :
    firstDirective? (line ++ behindLine more) = none := by
  -- Each line hands the search on to the next, and the last one ends it.
  induction more generalizing line with
  | nil =>
    have is := others line List.mem_cons_self
    have last : line ++ behindLine [] = line := List.append_nil line
    rw [last, firstDirective?_last is.unbroken, ← last]
    rcases is.directivePath? (head_behindLine []) with none | blank
    · exact none
    · rw [blank]
      rfl
  | cons next more ih =>
    obtain ⟨head, tail⟩ := List.forall_mem_cons.mp others
    rw [head.firstDirective?, ih tail]

end Search

section LineEnds

variable {trail rest : List Char}

/-- Blanks and a break, or the end of the file, end a line. -/
theorem endsLine_of_breaks (trailBlank : AreBlanks trail)
    (breaks : ∀ c, rest.head? = some c → c = '\n') : endsLine (trail ++ rest) = true := by
  have blank : ∀ c ∈ trail, isBlank c = true := fun c member => (trailBlank c member).1
  cases rest with
  | nil =>
    rw [endsLine, leadingRun_run blank (by simp)]
    simp
  | cons c rest =>
    obtain rfl := breaks c rfl
    have inside : '\n' ∈ (trail ++ '\n' :: rest).takeWhile isBlank := by
      rw [List.takeWhile_append_of_pos blank]
      exact List.mem_append_right _ (by simp [show isBlank '\n' = true by decide])
    rw [endsLine, leadingRun, List.contains_iff_mem.mpr inside, Bool.true_or]

/-- A line with a comment does not end in front of the comment. -/
theorem not_endsLine_of_comment (trailBlank : AreBlanks trail) :
    endsLine (trail ++ '/' :: rest) = false := by
  -- The blanks stop at the slash, and there is no break among them.
  have run : leadingRun isBlank (trail ++ '/' :: rest) = (trail, '/' :: rest) := by
    refine leadingRun_run (fun c member => (trailBlank c member).1) fun c head => ?_
    cases head
    decide
  have unbroken : '\n' ∉ trail := fun member => (trailBlank _ member).2 rfl
  simp [endsLine, run, unbroken]

/-- What begins with a blank, if with anything, cannot go on with a path or with a quote. -/
theorem stops_of_blank (blank : ∀ c, rest.head? = some c → isBlank c = true) (isQuoted : Bool) :
    (∀ c, (quoteIf isQuoted ++ rest).head? = some c → isModulePathChar c = false) ∧
      rest.head? ≠ some '"' := by
  constructor
  · intro c head
    cases isQuoted with
    | true =>
      cases head
      decide
    | false => rw [isModulePathChar, blank c head, Bool.not_true, Bool.false_and]
  · intro head
    exact absurd (blank _ head) (by decide)

end LineEnds

namespace ModuleFile

variable (file : ModuleFile)

/-- A line that nothing but blanks ends gives the path of the module. -/
theorem directivePath?_bare (bare : file.comment = none) {rest : List Char}
    (breaks : ∀ c, rest.head? = some c → c = '\n') :
    directivePath? (file.directive ++ rest) = some file.path := by
  have whole : file.directive ++ rest = file.lead ++ moduleKeyword ++ file.gap ++
      quoteIf file.isQuoted ++ file.path ++ (quoteIf file.isQuoted ++ (file.trail ++ rest)) := by
    simp [directive, note, bare]
  -- Behind the path and its quote come blanks, the break, or nothing.
  have blank : ∀ c, (file.trail ++ rest).head? = some c → isBlank c = true := by
    intro c head
    cases trail : file.trail with
    | nil =>
      rw [trail] at head
      obtain rfl := breaks c head
      decide
    | cons d more =>
      rw [trail] at head
      cases head
      exact (file.trailBlank _ (trail ▸ List.mem_cons_self)).1
  obtain ⟨stops, plain⟩ := stops_of_blank blank file.isQuoted
  rw [whole, directivePath?_directive _ file.leadBlank file.gapBlank file.apart file.named
    file.pathChars stops, skipQuote_quoteIf _ plain, endsLine_of_breaks file.trailBlank breaks,
    if_pos rfl]

/-- A comment right behind a path without quotes is read into the path. -/
theorem directivePath?_attached {text : List Char} (noted : file.comment = some text)
    (bare : file.isQuoted = false) (trail : file.trail = []) (rest : List Char) :
    directivePath? (file.directive ++ rest) ≠ some file.path := by
  -- The path goes on with the slashes, up to a blank or a quote.
  have whole : file.directive ++ rest = file.lead ++ moduleKeyword ++ file.gap ++ quoteIf false ++
      (file.path ++ '/' :: '/' :: (text ++ rest).takeWhile isModulePathChar) ++
        (text ++ rest).dropWhile isModulePathChar := by
    simp [directive, note, noted, bare, trail, quoteIf, List.takeWhile_append_dropWhile]
  have longer : file.path ++ '/' :: '/' :: (text ++ rest).takeWhile isModulePathChar ≠
      file.path := by simp
  have chars : ∀ c ∈ file.path ++ '/' :: '/' :: (text ++ rest).takeWhile isModulePathChar,
      isModulePathChar c = true := by
    have slash : isModulePathChar '/' = true := by decide
    have run := fun c member => @List.mem_takeWhile_imp _ isModulePathChar (text ++ rest) c member
    exact List.forall_mem_append.mpr ⟨file.pathChars, List.forall_mem_cons.mpr ⟨slash,
      List.forall_mem_cons.mpr ⟨slash, run⟩⟩⟩
  have stops : ∀ c, ((text ++ rest).dropWhile isModulePathChar).head? = some c →
      isModulePathChar c = false :=
    fun c head => leadingRun_stops isModulePathChar head
  rw [whole, directivePath?_directive false file.leadBlank file.gapBlank file.apart (by simp) chars
    stops]
  split
  · exact fun same => longer (Option.some.inj same)
  · exact Option.some_ne_none _ ∘ Eq.symm

/-- A comment set off from the path by a quote or by blanks leaves a line that gives nothing. -/
theorem directivePath?_setOff {text : List Char} (noted : file.comment = some text)
    (setOff : file.isQuoted = false → file.trail ≠ []) (rest : List Char) :
    directivePath? (file.directive ++ rest) = none := by
  have whole : file.directive ++ rest = file.lead ++ moduleKeyword ++ file.gap ++
      quoteIf file.isQuoted ++ file.path ++
      (quoteIf file.isQuoted ++ (file.trail ++ '/' :: ('/' :: text ++ rest))) := by
    simp [directive, note, noted]
  -- Behind the path come a quote or a blank, and behind the quote no other one.
  have blank : ∀ {c more}, file.trail = c :: more → isBlank c = true := fun trail =>
    (file.trailBlank _ (trail ▸ List.mem_cons_self)).1
  have plain : (file.trail ++ '/' :: ('/' :: text ++ rest)).head? ≠ some '"' := by
    intro head
    cases trail : file.trail with
    | nil =>
      rw [trail] at head
      cases head
    | cons c more =>
      rw [trail] at head
      cases head
      exact absurd (blank trail) (by decide)
  have stops : ∀ c, (quoteIf file.isQuoted ++
      (file.trail ++ '/' :: ('/' :: text ++ rest))).head? = some c →
      isModulePathChar c = false := by
    intro c head
    cases quoted : file.isQuoted with
    | true =>
      rw [quoted] at head
      cases head
      decide
    | false =>
      cases trail : file.trail with
      | nil => exact absurd trail (setOff quoted)
      | cons d more =>
        rw [quoted, trail] at head
        cases head
        rw [isModulePathChar, blank trail]
        rfl
  rw [whole, directivePath?_directive _ file.leadBlank file.gapBlank file.apart file.named
    file.pathChars stops, skipQuote_quoteIf _ plain, not_endsLine_of_comment file.trailBlank]
  rfl

/-- A line that a comment ends gives nothing, or a path that the comment is a part of. -/
theorem directivePath?_commented {text : List Char} (noted : file.comment = some text)
    (rest : List Char) : directivePath? (file.directive ++ rest) ≠ some file.path := by
  by_cases attached : file.isQuoted = false ∧ file.trail = []
  · exact file.directivePath?_attached noted attached.1 attached.2 rest
  · rw [file.directivePath?_setOff noted (fun bare trail => attached ⟨bare, trail⟩)]
    exact Option.some_ne_none _ ∘ Eq.symm

/-- The directive fills one line. -/
theorem directive_unbroken : '\n' ∉ file.directive := by
  -- None of the parts of the line has a break in it.
  have blanks : ∀ {text}, AreBlanks text → '\n' ∉ text := fun blank member =>
    (blank _ member).2 rfl
  have path : '\n' ∉ file.path := fun member => absurd (file.pathChars _ member) (by decide)
  have keyword : '\n' ∉ moduleKeyword := by decide
  have quote : '\n' ∉ quoteIf file.isQuoted := by cases file.isQuoted <;> decide
  have note : '\n' ∉ file.note := by
    rw [note]
    cases noted : file.comment with
    | none => exact List.not_mem_nil
    | some text => simpa using file.commentUnbroken text noted
  simp [directive, blanks file.leadBlank, blanks file.gapBlank, blanks file.trailBlank, path,
    keyword, quote, note]

/-- Behind lines that are no directives the search comes to the directive. -/
theorem firstDirective?_text :
    firstDirective? file.text.toList = firstDirective? (file.directive ++ behindLine file.after) := by
  have split : file.text.toList =
      joinWith ['\n'] (file.before ++ file.directive :: file.after) := String.toList_ofList
  rw [split, firstDirective?_others file.others]

/-- Without a comment the line of the directive is the one that is found. -/
theorem modulePath?_bare (bare : file.comment = none) :
    modulePath? file.text = some (String.ofList file.path) := by
  have found : firstDirective? file.text.toList = some file.path := by
    rw [file.firstDirective?_text]
    simp [firstDirective?, file.directivePath?_bare bare (head_behindLine file.after)]
  show (firstDirective? file.text.toList).map String.ofList = _
  rw [found]
  rfl

/-- With a comment it is not, and no line behind it is either. -/
theorem modulePath?_commented {text : List Char} (noted : file.comment = some text)
    (others : ∀ line ∈ file.after, IsOtherLine line) :
    modulePath? file.text ≠ some (String.ofList file.path) := by
  have missed : firstDirective? file.text.toList ≠ some file.path := by
    -- The line gives nothing or another path; if nothing, the lines behind it are searched.
    have other := file.directivePath?_commented noted (behindLine file.after)
    rw [file.firstDirective?_text]
    cases after : file.after with
    | nil =>
      rw [after] at other
      have last : file.directive ++ behindLine [] = file.directive := List.append_nil _
      rw [last] at other ⊢
      rwa [firstDirective?_last file.directive_unbroken]
    | cons next more =>
      rw [after] at others other
      rw [firstDirective?_line file.directive_unbroken, firstDirective?_none others, Option.or_none]
      exact other
  intro found
  exact missed ((Option.map_injective fun _ _ => String.ofList_injective) found)

end ModuleFile

section Found

variable {tree : FileTree} (setting : Option String) {directory root : FilePath}
  {nearer farther : List FilePath} {file : ModuleFile}

/-- On the way up the search comes to the first directory with a module file, and ends there. -/
theorem moduleIn_nearest (nearest : ∀ above ∈ nearer, tree.read? (above.join moduleFileName) = none)
    {text : String} (held : tree.read? (root.join moduleFileName) = some text) :
    moduleIn (tree.workspace setting) (nearer ++ root :: farther) =
      match modulePath? text with
      | none => .error (.missingModule (root.join moduleFileName))
      | some path => .ok (some ⟨root, path⟩) := by
  have reads : ∀ path, (tree.workspace setting).read path = .ok (tree.read? path) := fun _ => rfl
  -- Directories without a module file are passed one after the other.
  induction nearer with
  | nil =>
    rw [List.nil_append, moduleIn, reads, ok_bind, held]
    dsimp only
    cases modulePath? text <;> rfl
  | cons above nearer ih =>
    obtain ⟨missing, others⟩ := List.forall_mem_cons.mp nearest
    rw [List.cons_append, moduleIn, reads, ok_bind, missing]
    exact ih others

/--
The module around a directory is found by the module file nearest to it, if no comment follows the
directive on its line, and else it is not.

Lines behind an uncommented directive may be anything; behind a commented one, another line that
begins like a directive may be taken for it.
-/
theorem findModule_uncommented (up : directory.ancestors = nearer ++ root :: farther)
    (nearest : ∀ above ∈ nearer, tree.read? (above.join moduleFileName) = none)
    (held : tree.read? (root.join moduleFileName) = some file.text) :
    (file.comment = none → findModule (tree.workspace setting) directory =
      .ok (some ⟨root, String.ofList file.path⟩)) ∧
    ((∀ line ∈ file.after, IsOtherLine line) →
      (findModule (tree.workspace setting) directory =
        .ok (some ⟨root, String.ofList file.path⟩) ↔ file.comment = none)) := by
  rw [findModule, up, moduleIn_nearest setting nearest held]
  have found : file.comment = none → (match modulePath? file.text with
      | none => .error (.missingModule (root.join moduleFileName))
      | some path => .ok (some ⟨root, path⟩) : Except Failure (Option Module)) =
        .ok (some ⟨root, String.ofList file.path⟩) := by
    intro bare
    rw [file.modulePath?_bare bare]
  refine ⟨found, fun others => ⟨fun same => ?_, found⟩⟩
  cases noted : file.comment with
  | none => rfl
  | some text =>
    have missed := file.modulePath?_commented noted others
    split at same
    · cases same
    · rename_i path read
      cases same
      exact absurd read missed

/-- A line that goes on with another letter behind its blanks does not name a module. -/
theorem isOtherLine_of_start {line : List Char} (unbroken : '\n' ∉ line)
    (start : (line.dropWhile isBlank).head? ≠ some 'm') : IsOtherLine line := by
  -- Behind blanks, the word of the directive would begin with that letter.
  refine ⟨unbroken, fun lead rest whole leadBlank => absurd ?_ start⟩
  have solid : ∀ c, (moduleKeyword ++ rest).head? = some c → isBlank c = false := by
    intro c head
    cases head
    decide
  rw [whole, List.append_assoc, dropWhile_run (fun c member => (leadBlank c member).1) solid]
  rfl

/-- A module file with a comment above its directive, whose path is quoted. -/
def quotedModule : ModuleFile where
  before := ["// A module.".toList, []]
  lead := [' ']
  gap := ['\t']
  isQuoted := true
  path := "example.com/ws".toList
  trail := ['\r']
  comment := none
  after := [[], "go 1.22".toList, []]
  others := by
    intro line member
    simp only [List.mem_cons, List.not_mem_nil, or_false] at member
    rcases member with rfl | rfl <;> exact isOtherLine_of_start (by decide) (by decide)
  leadBlank := by decide
  gapBlank := by decide
  apart := by decide
  named := by decide
  pathChars := List.all_eq_true.mp (by decide)
  pathPlain := by decide
  trailBlank := by decide
  commentUnbroken := by simp
  afterUnbroken := by decide

/-- A module file with a comment behind its directive. -/
def notedModule : ModuleFile where
  before := []
  lead := []
  gap := [' ']
  isQuoted := false
  path := "example.com/ws".toList
  trail := [' ']
  comment := some " note".toList
  after := [[], "go 1.22".toList, []]
  others := nofun
  leadBlank := by decide
  gapBlank := by decide
  apart := by decide
  named := by decide
  pathChars := List.all_eq_true.mp (by decide)
  pathPlain := by decide
  trailBlank := by decide
  commentUnbroken := by
    intro text is
    obtain rfl := Option.some.inj is
    decide
  afterUnbroken := by decide

/-- The path is found between its quotes, behind a comment and blanks. -/
theorem findModule_uncommented_quoted :
    findModule (FileTree.workspace ⟨[(⟨"/ws/go.mod"⟩, quotedModule.text)]⟩ none) ⟨"/ws/p"⟩ =
      .ok (some ⟨⟨"/ws"⟩, "example.com/ws"⟩) :=
  (@findModule_uncommented ⟨[(⟨"/ws/go.mod"⟩, quotedModule.text)]⟩ none ⟨"/ws/p"⟩ ⟨"/ws"⟩
    [⟨"/ws/p"⟩] [⟨"/"⟩] quotedModule (by decide +kernel) (by decide +kernel)
    (by decide +kernel)).1 rfl

/-- The module of a file whose directive has a comment behind it is refused as missing. -/
theorem missingModule_of_comment :
    findModule (FileTree.workspace
      ⟨[(⟨"/ws/go.mod"⟩, "module example.com/ws // note\n\ngo 1.22\n")]⟩ none) ⟨"/ws"⟩ =
        .error (.missingModule ⟨"/ws/go.mod"⟩) ∧
      notedModule.text = "module example.com/ws // note\n\ngo 1.22\n" := by
  decide +kernel

end Found

end Scaffold.Go
