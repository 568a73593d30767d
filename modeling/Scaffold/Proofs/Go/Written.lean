import Scaffold.Go.Literal
import Scaffold.Imports.Block
import Scaffold.Proofs.Go.Tokens

/-! Imports that are written are read back as the same imports. -/

namespace Scaffold.Go

/-- A path that keeps its value when it is put between double quotes. -/
def IsReadable (path : String) : Prop :=
  interpretedText (path.toList ++ ['"']) = some (path.toList ++ ['"'], []) ∧
    unquote (String.ofList ('"' :: path.toList ++ ['"'])) = path

/-- A path without any character that means something special between double quotes. -/
def IsPlain (path : String) : Prop :=
  '"' ∉ path.toList ∧ '\\' ∉ path.toList ∧ '\n' ∉ path.toList

theorem interpretedText_plain {path : List Char} (quote : '"' ∉ path) (slash : '\\' ∉ path)
    (broken : '\n' ∉ path) (rest : List Char) :
    interpretedText (path ++ '"' :: rest) = some (path ++ ['"'], rest) := by
  induction path with
  | nil => rfl
  | cons c path ih =>
    simp only [List.mem_cons, not_or] at quote slash broken
    rw [List.cons_append, interpretedText]
    · rw [if_neg (by simpa using Ne.symm quote.1), if_neg, ih quote.2 slash.2 broken.2]
      · rfl
      · simp [Ne.symm slash.1, Ne.symm broken.1]
    · intro d more same
      exact absurd same.symm slash.1

theorem readBody_plain {path : List Char} (quote : '"' ∉ path) (slash : '\\' ∉ path) :
    Json.readBody (path ++ ['"']) = none ∨ Json.readBody (path ++ ['"']) = some (path, []) := by
  induction path with
  | nil => exact .inr rfl
  | cons c path ih =>
    simp only [List.mem_cons, not_or] at quote slash
    rw [List.cons_append, Json.readBody]
    · by_cases control : c.toNat < 0x20
      · exact .inl (if_pos (by simp [control]))
      · rw [if_neg (by simp [control, Ne.symm slash.1])]
        rcases ih quote.2 slash.2 with none | some
        · exact .inl (by rw [none]; rfl)
        · exact .inr (by rw [some]; rfl)
    · exact fun same => quote.1 same.symm
    · intro a b d e more same
      exact absurd same.symm slash.1
    · intro d more same
      exact absurd same.symm slash.1

theorem trimQuotes_plain {path : List Char} (quote : '"' ∉ path) :
    trimQuotes ('"' :: path ++ ['"']) = path := by
  have front : ('"' :: path ++ ['"']).dropWhile (· == '"') = (path ++ ['"']).dropWhile (· == '"') :=
    rfl
  have fails : ∀ c ∈ path, (c == '"') = false := by
    intro c member
    rw [beq_eq_false_iff_ne]
    rintro rfl
    exact quote member
  rw [trimQuotes, front]
  cases path with
  | nil => rfl
  | cons c path =>
    rw [List.cons_append, List.dropWhile_cons_of_neg (by simp [fails c (by simp)]), dropTrailing,
      ← List.cons_append, List.reverse_append, List.reverse_singleton, List.singleton_append,
      List.dropWhile_cons_of_pos (by decide)]
    have kept : (c :: path).reverse.dropWhile (· == '"') = (c :: path).reverse := by
      cases back : (c :: path).reverse with
      | nil => rfl
      | cons d rest =>
        have member : d ∈ c :: path := List.mem_reverse.mp (back ▸ List.mem_cons_self)
        exact List.dropWhile_cons_of_neg (by simp [fails d member])
    rw [kept, List.reverse_reverse]

/-- A plain path can be read back. -/
theorem IsPlain.readable {path : String} (plain : IsPlain path) : IsReadable path := by
  obtain ⟨quote, slash, broken⟩ := plain
  refine ⟨interpretedText_plain quote slash broken [], ?_⟩
  have noRaw : betweenBackquotes? ('"' :: path.toList ++ ['"']) = none := by
    simp [betweenBackquotes?, afterPrefix?, backquote]
  have json : Json.readText? ('"' :: path.toList ++ ['"']) = none ∨
      Json.readText? ('"' :: path.toList ++ ['"']) = some path.toList := by
    rw [Json.readText?, List.cons_append, List.dropWhile_cons_of_neg (by decide)]
    rcases readBody_plain quote slash with none | some
    · exact .inl (by simp only [none])
    · exact .inr (by simp [some])
  simp only [unquote, String.toList_ofList, noRaw]
  rcases json with none | some
  · rw [none, Option.getD_none, trimQuotes_plain quote, String.ofList_toList]
  · rw [some, Option.getD_some, String.ofList_toList]

/-- A path between double quotes is read whole. -/
theorem nextLexeme_path {path : String} (readable : IsReadable path) (rest : List Char) :
    nextLexeme '"' (path.toList ++ '"' :: rest) =
      some (.token .text ('"' :: path.toList ++ ['"']), rest) := by
  have again := (selfClosed_interpretedText readable.1).2 rest
  rw [List.append_assoc, List.singleton_append] at again
  have notStart : Unicode.isIdentifierStart '"' = false := by decide
  rw [nextLexeme_eq, if_neg (by decide), if_neg (by simp), if_neg (by simp),
    if_neg (by simp [notStart]), if_neg (by simp [beginsNumber]), closedLexeme, if_pos (by decide), again]
  rfl

theorem nextLexeme_open (rest : List Char) :
    nextLexeme '(' rest = some (.token .mark ['('], rest) := rfl

theorem nextLexeme_close (rest : List Char) :
    nextLexeme ')' rest = some (.token .mark [')'], rest) := rfl

theorem nextLexeme_dot (rest : List Char) :
    nextLexeme '.' (' ' :: rest) = some (.token .mark ['.'], ' ' :: rest) := rfl

/-- An import that keeps its path and its name when it is written. -/
structure IsWritable (needed : Import) : Prop where
  path : IsReadable needed.path
  name : ∀ name, needed.name = some name → name = "." ∨ isName name.toList = true

/-- An import and a declared one of the same path under the same name. -/
def IsImportOf (needed : Import) (spec : ImportSpec) : Prop :=
  spec.name = needed.name ∧ spec.path = needed.path

theorem isImportOf_mk {needed : Import} {name : Option String} {path : String} {start stop : Nat}
    (named : name = needed.name) (same : path = needed.path) :
    IsImportOf needed ⟨name, path, start, stop⟩ :=
  ⟨named, same⟩

/-- The elements of a name before a path. -/
def nameLexemes : Option String → List Lexeme
  | none => []
  | some name =>
    [if name = "." then .token .mark ['.'] else .token .word name.toList, .blank ' ']

/-- The elements of an import as it is written. -/
def specLexemes (needed : Import) : List Lexeme :=
  nameLexemes needed.name ++ [.token .text ('"' :: needed.path.toList ++ ['"'])]

theorem lexes_spec {needed : Import} (writable : IsWritable needed) (rest : List Char) :
    Lexes (needed.spec.toList ++ rest) (specLexemes needed) rest := by
  have path : Lexes ('"' :: (needed.path.toList ++ '"' :: rest))
      [.token .text ('"' :: needed.path.toList ++ ['"'])] rest :=
    .cons (nextLexeme_path writable.path rest) .nil
  rw [Import.spec, specLexemes]
  cases named : needed.name with
  | none => simpa [nameLexemes] using path
  | some name =>
    have blank : Lexes (' ' :: '"' :: (needed.path.toList ++ '"' :: rest))
        [.blank ' ', .token .text ('"' :: needed.path.toList ++ ['"'])] rest :=
      .cons (nextLexeme_blank (by decide) _) path
    by_cases dot : name = "."
    · subst dot
      have dotted := Lexes.cons (nextLexeme_dot _) blank
      simpa [nameLexemes] using dotted
    · have word := lexes_name ((writable.name name named).resolve_left dot)
        (by rintro d ⟨⟩; decide : ∀ d, (' ' :: '"' :: (needed.path.toList ++ '"' :: rest)).head? =
          some d → Unicode.isIdentifierContinue d = false)
      simpa [nameLexemes, dot] using word.append blank

theorem lexemeChars_specLexemes {needed : Import} (writable : IsWritable needed) :
    lexemeChars (specLexemes needed) = needed.spec.toList := by
  have whole := (lexes_spec writable []).chars
  rw [List.append_nil, List.append_nil] at whole
  exact whole.symm

/-- A written import makes the tokens of that import, from where it begins to where it ends. -/
theorem tokensFrom_spec (reach : Reach) {needed : Import} (writable : IsWritable needed) :
    ∃ spec, SpecRead (tokensFrom reach (specLexemes needed)) spec ∧ IsImportOf needed spec ∧
      spec.start = reach.offset ∧ spec.stop = (reachBehind reach (specLexemes needed)).offset ∧
      (reachBehind reach (specLexemes needed)).ending = true ∧
      (reachBehind reach (specLexemes needed)).gap = [] := by
  have value : ∀ start : Reach,
      unquote (start.token .text ('"' :: needed.path.toList ++ ['"'])).text = needed.path :=
    fun _ => writable.path.2
  rw [specLexemes]
  cases named : needed.name with
  | none =>
    exact ⟨_, .plain rfl, isImportOf_mk named.symm (value _), rfl, Reach.stop_token _ _ _, rfl, rfl⟩
  | some name =>
    by_cases dot : name = "."
    · subst dot
      exact ⟨_, .named (.inr rfl) rfl, isImportOf_mk named.symm (value _), rfl,
        Reach.stop_token _ _ _, rfl, rfl⟩
    · rw [nameLexemes, if_neg dot]
      refine ⟨_, .named (.inl rfl) rfl, isImportOf_mk ?_ (value _), rfl, Reach.stop_token _ _ _,
        rfl, rfl⟩
      rw [named]
      exact congrArg some String.ofList_toList

section Lines

/-- The text of a line between parentheses: an import on it, or nothing. -/
def lineText : Option Import → List Char
  | none => ['\n']
  | some needed => (specLine needed).toList

/-- The elements of a line. -/
def lineLexemes : Option Import → List Lexeme
  | none => [.blank '\n']
  | some needed => .blank '\t' :: (specLexemes needed ++ [.blank '\n'])

/-- The imports on lines, each with the offset its line begins at. -/
def lineOffsets (offset : Nat) : List (Option Import) → List (Nat × Import)
  | [] => []
  | none :: rest => lineOffsets (offset + 1) rest
  | some needed :: rest =>
    (offset, needed) :: lineOffsets (offset + byteLength (specLine needed).toList) rest

/-- A declared import is that of a line, and stands behind the first character of the line. -/
structure StandsOn (line : Nat × Import) (spec : ImportSpec) : Prop where
  value : IsImportOf line.2 spec
  start : spec.start = line.1 + 1
  stop : spec.stop = line.1 + 1 + byteLength line.2.spec.toList

variable {lines : List (Option Import)}

theorem specLine_toList (needed : Import) :
    (specLine needed).toList = '\t' :: (needed.spec.toList ++ ['\n']) := by
  simp [specLine]

theorem map_snd_lineOffsets (offset : Nat) (lines : List (Option Import)) :
    (lineOffsets offset lines).map Prod.snd = lines.filterMap id := by
  induction lines generalizing offset with
  | nil => rfl
  | cons line lines ih =>
    cases line with
    | none => exact ih (offset + 1)
    | some needed => exact congrArg (needed :: ·) (ih _)

theorem lexes_lines (writable : ∀ needed, some needed ∈ lines → IsWritable needed)
    (rest : List Char) :
    Lexes (lines.flatMap lineText ++ rest) (lines.flatMap lineLexemes) rest := by
  induction lines with
  | nil => exact .nil
  | cons line lines ih =>
    have others := ih fun needed member => writable needed (List.mem_cons_of_mem _ member)
    rw [List.flatMap_cons, List.flatMap_cons, List.append_assoc]
    refine Lexes.append ?_ others
    generalize lines.flatMap lineText ++ rest = rest
    cases line with
    | none => exact .cons (nextLexeme_blank (by decide) _) .nil
    | some needed =>
      have read := (lexes_spec (writable needed (by simp)) ('\n' :: rest)).append
        (.cons (nextLexeme_blank (by decide) rest) .nil)
      rw [lineText, specLine_toList, List.cons_append, List.append_assoc]
      exact .cons (nextLexeme_blank (by decide) _) read

theorem lexemeChars_lines (writable : ∀ needed, some needed ∈ lines → IsWritable needed) :
    lexemeChars (lines.flatMap lineLexemes) = lines.flatMap lineText := by
  have whole := (lexes_lines writable []).chars
  rw [List.append_nil, List.append_nil] at whole
  exact whole.symm

/-- Lines are read back as the imports on them, where these stand. -/
theorem tokensFrom_lines (writable : ∀ needed, some needed ∈ lines → IsWritable needed)
    (reach : Reach) (closed : reach.ending = false) : ∃ specs,
      EndedSpecs (tokensFrom reach (lines.flatMap lineLexemes)) specs ∧
      List.Forall₂ StandsOn (lineOffsets reach.offset lines) specs ∧
      (reachBehind reach (lines.flatMap lineLexemes)).ending = false := by
  induction lines generalizing reach with
  | nil => exact ⟨[], .nil, .nil, closed⟩
  | cons line lines ih =>
    have others := ih fun needed member => writable needed (List.mem_cons_of_mem _ member)
    rw [List.flatMap_cons, tokensFrom_append, reachBehind_append]
    cases line with
    | none =>
      have blank := tokenAt_blank reach '\n' (.inr closed)
      obtain ⟨specs, ended, stand, unended⟩ := others _ (blank.2.trans closed)
      rw [tokenAt_offset] at stand
      rw [lineLexemes, tokensFrom, tokensFrom, reachBehind, reachBehind, blank.1]
      exact ⟨specs, ended, stand, unended⟩
    | some needed =>
      have tab := tokenAt_blank reach '\t' (.inl (by decide))
      obtain ⟨spec, one, value, start, stop, ends, -⟩ :=
        tokensFrom_spec (tokenAt reach (.blank '\t')).2 (writable needed (by simp))
      have broken := tokenAt_break ends
      obtain ⟨specs, ended, stand, unended⟩ := others _ broken.2
      have chars := lexemeChars_specLexemes (writable needed (by simp))
      rw [reachBehind_offset, tokenAt_offset, chars] at stop
      rw [tokenAt_offset] at start
      have length : reach.offset + byteLength (specLine needed).toList =
          reach.offset + byteLength ['\t'] + byteLength needed.spec.toList +
            byteLength ['\n'] := by
        rw [specLine_toList, byteLength_cons, byteLength_append]
        simp only [byteLength_cons, byteLength_nil]
        omega
      rw [tokenAt_offset, reachBehind_offset, tokenAt_offset, chars, Lexeme.chars, Lexeme.chars,
        ← length] at stand
      rw [lineLexemes, tokensFrom, tab.1, List.nil_append, tokensFrom_append, tokensFrom,
        tokensFrom, broken.1, reachBehind, reachBehind_append, reachBehind, reachBehind,
        List.append_assoc]
      exact ⟨spec :: specs, .cons one rfl ended, .cons ⟨value, start, stop⟩ stand, unended⟩

end Lines

/-- The text of imports, each on a line, with empty lines anywhere between them. -/
inductive SpecText : List Char → List Import → Prop
  | nil : SpecText [] []
  | space {text : List Char} {imports : List Import} (others : SpecText text imports) :
      SpecText ('\n' :: text) imports
  | line {text : List Char} {imports : List Import} {needed : Import}
      (writable : IsWritable needed) (others : SpecText text imports) :
      SpecText ((specLine needed).toList ++ text) (needed :: imports)

namespace SpecText

variable {text more : List Char} {imports others : List Import}

theorem append (front : SpecText text imports) (back : SpecText more others) :
    SpecText (text ++ more) (imports ++ others) := by
  induction front with
  | nil => exact back
  | space _ ih => exact .space ih
  | line writable _ ih =>
    rw [List.append_assoc]
    exact .line writable ih

/-- A text of imports is that of some lines. -/
theorem exists_lines (written : SpecText text imports) : ∃ lines : List (Option Import),
    text = lines.flatMap lineText ∧ lines.filterMap id = imports ∧
      ∀ needed, some needed ∈ lines → IsWritable needed := by
  induction written with
  | nil => exact ⟨[], rfl, rfl, by simp⟩
  | space _ ih =>
    obtain ⟨lines, rfl, rfl, writable⟩ := ih
    exact ⟨none :: lines, rfl, rfl, by simpa using writable⟩
  | @line _ _ needed first _ ih =>
    obtain ⟨lines, rfl, rfl, writable⟩ := ih
    refine ⟨some needed :: lines, rfl, rfl, ?_⟩
    rintro other member
    rcases List.mem_cons.mp member with same | later
    · exact Option.some.inj same ▸ first
    · exact writable other later

/-- The text is read back line by line, as the imports it is the text of. -/
theorem read (written : SpecText text imports) : ∃ lexemes,
    (∀ rest, Lexes (text ++ rest) lexemes rest) ∧
    ∀ reach : Reach, reach.ending = false → ∃ specs,
      EndedSpecs (tokensFrom reach lexemes) specs ∧ List.Forall₂ IsImportOf imports specs ∧
        (reachBehind reach lexemes).ending = false := by
  obtain ⟨lines, rfl, rfl, writable⟩ := written.exists_lines
  refine ⟨lines.flatMap lineLexemes, lexes_lines writable, fun reach closed => ?_⟩
  obtain ⟨specs, ended, stand, unended⟩ := tokensFrom_lines writable reach closed
  refine ⟨specs, ended, ?_, unended⟩
  rw [← map_snd_lineOffsets reach.offset, List.forall₂_map_left_iff]
  exact stand.imp fun _ _ one => one.value

end SpecText

end Scaffold.Go
