import Scaffold.Proofs.Go.Header
import Scaffold.Proofs.Imports.Room

/-! Files that begin with a package clause and imports, and where these imports are read. -/

namespace Scaffold

open Go

/-- A file that begins with a package clause and a block of imports. -/
def headed (setting : Option String) (imports : List Import) (rest : String) : String :=
  "package p\n" ++ importBlock setting imports ++ rest

/-- The rest of a file that declares no imports. -/
def DeclaresNone (rest : String) : Prop :=
  (importsFile ("package p\n" ++ rest)).importDecls = []

variable {setting : Option String} {imports : List Import} {rest : String}

theorem headed_nil (setting : Option String) (rest : String) :
    headed setting [] rest = "package p\n" ++ rest := by
  rw [headed, importBlock, String.append_empty]

theorem headed_toList (some : imports ≠ []) : (headed setting imports rest).toList =
    "package p\n\n".toList ++ (declText setting imports ++ '\n' :: rest.toList) := by
  have lead : "package p\n\n".toList = "package p\n".toList ++ ['\n'] := by decide
  rw [headed, String.toList_append, String.toList_append, importBlock_eq setting some, lead]
  simp

/-- Behind the first line all is read as it would be anywhere. -/
theorem lexes_headed {text : String} {more after : List Char} {lexemes : List Lexeme}
    (split : text.toList = "package p\n".toList ++ more) (reads : Lexes more lexemes after) :
    FileLexes text.toList ([] ++ (clauseLexemes "p" ++ .blank '\n' :: lexemes)) after := by
  have line : "package p\n".toList = ("package " ++ "p").toList ++ ['\n'] := by decide
  have whole : "package p\n".toList ++ more = ("package " ++ "p").toList ++ '\n' :: more := by
    rw [line, List.append_assoc, List.singleton_append]
  have clause : Lexes (("package " ++ "p").toList ++ '\n' :: more) (clauseLexemes "p")
      ('\n' :: more) := lexes_clause (by decide) (by rintro d ⟨⟩; decide)
  have lexes : Lexes ("package p\n".toList ++ more)
      (clauseLexemes "p" ++ .blank '\n' :: lexemes) after := by
    rw [whole]
    exact clause.append (.cons (nextLexeme_blank (by decide) _) reads)
  rw [split]
  refine .plain ?_ lexes
  rintro c ⟨⟩
  decide

/-- The tokens of a file whose elements end where no more begin. -/
private theorem importDecls_of_lexes {text : String} {after : List Char} {lexemes : List Lexeme}
    (reads : FileLexes text.toList lexemes after) {complete : Bool}
    (last : allLexemes after = ([], complete)) :
    (importsFile text).importDecls = declsOf (allItems (placeTokens {} lexemes)).1 := by
  rw [importsFile, importDecls_ofText, reads.lexemes_eq, last, List.append_nil]

/-- In front of a rest without imports, the block is the one declaration. -/
theorem importDecls_headed (some : imports ≠ []) (bare : DeclaresNone rest)
    {property : Nat → ImportDecl → Prop} (reads : ReadsDecl (declText setting imports) property) :
    ∃ decl, (importsFile (headed setting imports rest)).importDecls = [decl] ∧
      property (byteLength "package p\n\n".toList) decl := by
  obtain ⟨after, others, last⟩ := lexes_allLexemes rest.toList
  obtain ⟨-, new, lexes, tokens⟩ := reads
  generalize (allLexemes rest.toList).1 = behind at others
  -- The file without the block has the same rest behind its clause.
  have old := lexes_headed String.toList_append others
  rw [DeclaresNone, importDecls_of_lexes old last] at bare
  obtain ⟨_, _, reach, items, -, -, ending, gap, closed⟩ := allItems_clause (by decide) old rfl
  rw [items] at bare
  -- The block stands between two line breaks.
  have block : Lexes ('\n' :: (declText setting imports ++ '\n' :: rest.toList))
      (.blank '\n' :: (new ++ .blank '\n' :: behind)) after :=
    .cons (nextLexeme_blank (by decide) _) ((lexes _).append
      (.cons (nextLexeme_blank (by decide) _) others))
  have split : (headed setting imports rest).toList =
      "package p\n".toList ++ '\n' :: (declText setting imports ++ '\n' :: rest.toList) := by
    have lead : "package p\n\n".toList = "package p\n".toList ++ ['\n'] := by decide
    rw [headed_toList some, lead, List.append_assoc]
    rfl
  have whole := lexes_headed split block
  obtain ⟨clause, taken, reach', items', stop, offset, ending', gap', closed'⟩ :=
    allItems_clause (by decide) whole rfl
  -- The first break ends the clause, the second one sets the block off.
  have first := tokenAt_break ending'
  have second := tokenAt_blank (tokenAt reach' (.blank '\n')).2 '\n' (.inr first.2)
  have here : (tokenAt (tokenAt reach' (.blank '\n')).2 (.blank '\n')).2.offset =
      byteLength "package p\n\n".toList := by
    rw [tokenAt_offset, tokenAt_offset, offset, stop]
    rfl
  generalize inner : (tokenAt (tokenAt reach' (.blank '\n')).2 (.blank '\n')).2 = pair
    at second here
  obtain ⟨-, ⟨decl, decls, holds⟩, ending'', gap''⟩ := tokens pair
  have made : placeTokens reach' (.blank '\n' :: .blank '\n' :: (new ++ .blank '\n' :: behind)) =
      reach'.token .terminator ['\n'] :: (tokensFrom pair new ++
        placeTokens (reachBehind pair new) (.blank '\n' :: behind)) := by
    rw [placeTokens_cons, placeTokens_cons, first.1, second.1, inner, List.nil_append,
      List.singleton_append, placeTokens_append]
  rw [made] at items' closed'
  have more : tokensFrom pair new ++
      placeTokens (reachBehind pair new) (.blank '\n' :: behind) ≠ [] := by
    simp [placeTokens_ne_nil]
  have inside : Closed (tokensFrom pair new ++
      placeTokens (reachBehind pair new) (.blank '\n' :: behind)) :=
    @Closed.of_append [_] _ closed' more
  have further := inside.of_append (placeTokens_ne_nil _ _)
  -- Behind the block the reader is where it was behind the clause, so the rest is read alike.
  have like := placeTokens_like (⟨ending.trans ending''.symm, gap.trans gap''.symm⟩ :
    reach.Like (reachBehind pair new)) (.blank '\n' :: behind)
  have ends : endsItem (placeTokens (reachBehind pair new) (.blank '\n' :: behind)) = true := by
    rw [placeTokens_cons, (tokenAt_break ending'').1]
    rfl
  rw [allItems_terminator rfl inside, allItems_of_declRead further decls ends] at items'
  have none := (allItems_alike like closed).1.decls
  refine ⟨decl, ?_, here ▸ holds⟩
  -- The rest by itself declares nothing, so it declares nothing here.
  have nothing : declsOf (allItems (placeTokens reach (.blank '\n' :: behind))).1 = [] := bare
  rw [nothing] at none
  have single : declsOf (allItems (placeTokens (reachBehind pair new) (.blank '\n' :: behind))).1 =
      [] := List.forall₂_nil_left_iff.mp none
  rw [importDecls_of_lexes whole last, items']
  exact congrArg (decl :: ·) single

/-- Without imports the clause ends in front of the line break. -/
theorem package_headed (setting : Option String) (rest : String) : ∃ clause,
    (importsFile (headed setting [] rest)).package? = some clause ∧
      clause.stop = byteLength "package p".toList := by
  obtain ⟨after, others, last⟩ := lexes_allLexemes rest.toList
  have whole := lexes_headed String.toList_append others
  obtain ⟨clause, _, _, items, stop, -⟩ := allItems_clause (by decide) whole rfl
  refine ⟨clause, ?_, stop⟩
  rw [headed_nil, importsFile, SourceFile.package?, ofText_items, whole.lexemes_eq, last,
    List.append_nil, items]
  rfl

section Places

/-- An import with a plain path, under its own name, another one or all names it exports. -/
def Import.IsLegible (needed : Import) : Prop :=
  IsPlain needed.path ∧
    ∀ name, needed.name = some name → name = "." ∨ isName name.toList = true

variable {needed : Import}

theorem Import.IsLegible.writable (plain : needed.IsLegible) : IsWritable needed :=
  ⟨plain.1.readable, plain.2⟩

/-- No name is broken into lines. -/
theorem unbroken_of_isName {name : List Char} (is : isName name = true) : '\n' ∉ name := by
  cases name with
  | nil => simp
  | cons c rest =>
    simp only [isName, Bool.and_eq_true, List.all_eq_true] at is
    rintro (_ | ⟨_, later⟩)
    · exact absurd is.1.1 (by decide)
    · exact absurd (is.1.2 _ later) (by decide)

/-- A plain import is written on one line. -/
theorem Import.IsLegible.unbroken (plain : needed.IsLegible) : '\n' ∉ needed.spec.toList := by
  obtain ⟨⟨-, -, path⟩, name⟩ := plain
  rw [Import.spec]
  cases named : needed.name with
  | none => simp [path]
  | some text =>
    have free : '\n' ∉ text.toList := by
      rcases name text named with rfl | is
      · decide
      · exact unbroken_of_isName is
    simp [path, free]

/-- The line of an import stands in a text that begins at an offset, behind whole lines. -/
def HasLine (text : List Char) (offset : Nat) (line : Nat × Import) : Prop :=
  ∃ front back, text = front ++ ((specLine line.2).toList ++ back) ∧
    line.1 = offset + byteLength front ∧ (front = [] ∨ front.getLast? = some '\n')

/-- A whole line in front makes no difference. -/
theorem HasLine.behind {text : List Char} {offset : Nat} {line : Nat × Import} (first : List Char)
    (has : HasLine text (offset + byteLength (first ++ ['\n'])) line) :
    HasLine (first ++ ['\n'] ++ text) offset line := by
  obtain ⟨front, back, rfl, place, ends⟩ := has
  refine ⟨first ++ ['\n'] ++ front, back, by simp, ?_, .inr ?_⟩
  · rw [place, byteLength_append (first ++ ['\n']), Nat.add_assoc]
  · rcases ends with rfl | last
    · simp
    · rw [List.getLast?_append, last]
      rfl

/-- The lines of imports stand where their offsets say. -/
theorem hasLine_of_mem {lines : List (Option Import)} {offset : Nat} {line : Nat × Import}
    (member : line ∈ lineOffsets offset lines) : HasLine (lines.flatMap lineText) offset line := by
  induction lines generalizing offset with
  | nil => cases member
  | cons head lines ih =>
    rw [List.flatMap_cons]
    cases head with
    | none => exact HasLine.behind [] (ih member)
    | some needed =>
      rcases List.mem_cons.mp member with rfl | later
      · exact ⟨[], lines.flatMap lineText, rfl, rfl, .inl rfl⟩
      · have split : (specLine needed).toList = ('\t' :: needed.spec.toList) ++ ['\n'] := by
          rw [specLine_toList]
          rfl
        have others := ih later
        rw [split] at others
        rw [lineText, split]
        exact others.behind _

/-- The places of imports on lines that begin at an offset. -/
def placesIn (setting : Option String) (offset : Nat) (lines : List (Option Import)) :
    List PlacedSpec :=
  (lineOffsets offset lines).map fun line => ⟨line.2.path, importGroup setting line.2.path, line.1,
    line.1 + byteLength (specLine line.2).toList⟩

/-- What stands on a line of a text covers that line. -/
theorem placedSpec_of_standsOn {text : String} {lines : List (Option Import)}
    {front back : List Char} (split : text.toList = front ++ (lines.flatMap lineText ++ back))
    (broken : front.getLast? = some '\n') {line : Nat × Import} {spec : ImportSpec}
    (member : line ∈ lineOffsets (byteLength front) lines) (plain : line.2.IsLegible)
    (stands : StandsOn line spec) :
    placedSpec (importsFile text).lines setting spec = ⟨line.2.path,
      importGroup setting line.2.path, line.1, line.1 + byteLength (specLine line.2).toList⟩ := by
  obtain ⟨inner, rest, lines_eq, place, ends⟩ := hasLine_of_mem member
  have begins : front ++ inner = [] ∨ (front ++ inner).getLast? = some '\n' := by
    right
    rcases ends with rfl | last
    · simpa using broken
    · rw [List.getLast?_append, last]
      rfl
  have whole : text.toList = (front ++ inner) ++
      (('\t' :: line.2.spec.toList) ++ '\n' :: (rest ++ back)) := by
    rw [split, lines_eq, specLine_toList]
    simp
  have unbroken : '\n' ∉ '\t' :: line.2.spec.toList := by
    simp [plain.unbroken]
  have here : line.1 = byteLength (front ++ inner) := by rw [place, byteLength_append]
  have length : byteLength (specLine line.2).toList =
      byteLength ('\t' :: line.2.spec.toList) + 1 := by
    have split : (specLine line.2).toList = ('\t' :: line.2.spec.toList) ++ ['\n'] := by
      rw [specLine_toList]
      rfl
    rw [split, byteLength_append]
    rfl
  have tab : byteLength ('\t' :: line.2.spec.toList) = 1 + byteLength line.2.spec.toList := rfl
  have begun := stands.start
  have ended := stands.stop
  have start : (importsFile text).lines.lineStart spec.start = line.1 :=
    (lineStart_eq begins unbroken whole (by omega) (by omega)).1.trans here.symm
  have stop : (importsFile text).lines.lineStop spec.stop =
      line.1 + byteLength (specLine line.2).toList :=
    (lineStart_eq begins unbroken whole (by omega) (by omega)).2.trans (by omega)
  rw [placedSpec, start, stop, stands.value.2]

end Places

section Read

variable {first second : Import} {others : List Import}

/-- A file with one declaration imports what is declared there. -/
private theorem importsOf_of_single {text : String} {decl : ImportDecl}
    (only : (importsFile text).importDecls = [decl]) :
    importsOf text = decl.specs.map ImportSpec.value := by
  rw [importsOf, SourceFile.imports, only]
  simp

/-- One import alone is read as a declaration without parentheses. -/
theorem read_headed_single {single : Import} (plain : single.IsLegible) (bare : DeclaresNone rest) :
    ∃ decl, lastGroup? (importsFile (headed setting [single] rest)) = none ∧
      (importsFile (headed setting [single] rest)).importDecls.getLast? = some decl ∧
      decl.start = byteLength "package p\n\n".toList ∧
      decl.stop = decl.start + byteLength (declText setting [single]) ∧
      decl.specs.map ImportSpec.value = [single] ∧
      importsOf (headed setting [single] rest) = [single] := by
  have written := readsDecl_single plain.writable
  rw [← declText_single setting] at written
  obtain ⟨decl, only, start, stop, single', held⟩ :=
    importDecls_headed (List.cons_ne_nil _ _) bare written
  refine ⟨decl, ?_, ?_, start, stop.trans (by rw [start]), held, ?_⟩
  · rw [lastGroup?, only, List.filterMap_cons_none (by rw [single']; rfl)]
    rfl
  · rw [only]
    rfl
  · rw [importsOf_of_single only, held]

/-- Several imports are read as a declaration with parentheses, each on its line. -/
theorem read_headed_several (plain : ∀ needed ∈ first :: second :: others, needed.IsLegible)
    (bare : DeclaresNone rest) :
    ∃ decl, lastGroup? (importsFile (headed setting (first :: second :: others) rest)) =
        some (decl, byteLength ("package p\n\nimport (\n".toList ++
          (groupedLines setting (first :: second :: others)).toList)) ∧
      placesOf setting (headed setting (first :: second :: others) rest) decl =
        placesIn setting (byteLength "package p\n\nimport (\n".toList)
          (spacedLines (groupedImports setting (first :: second :: others))) ∧
      importsOf (headed setting (first :: second :: others) rest) =
        (groupedImports setting (first :: second :: others)).flatten := by
  generalize all : first :: second :: others = imports at *
  have held : ∀ needed, some needed ∈ spacedLines (groupedImports setting imports) →
      needed.IsLegible := fun needed member => plain needed
    ((flatten_groupedImports_perm setting imports).mem_iff.mp (mem_spacedLines.mp member))
  -- The block is read back line by line.
  have group := readsDecl_group fun needed member => (held needed member).writable
  have written : "import (\n".toList ++ (spacedLines (groupedImports setting imports)).flatMap
      lineText ++ [')'] = declText setting imports := by
    rw [flatMap_spacedLines, ← all, declText_several]
    rfl
  rw [written] at group
  obtain ⟨decl, only, close, stand⟩ :=
    importDecls_headed (by rw [← all]; exact List.cons_ne_nil _ _) bare group
  have lead : "package p\n\nimport (\n".toList = "package p\n\n".toList ++ "import (\n".toList := by
    decide
  rw [← byteLength_append, ← List.append_assoc, ← lead, flatMap_spacedLines] at close
  rw [← byteLength_append, ← lead] at stand
  have split : (headed setting imports rest).toList = "package p\n\nimport (\n".toList ++
      ((spacedLines (groupedImports setting imports)).flatMap lineText ++
        (')' :: '\n' :: rest.toList)) := by
    rw [headed_toList (by rw [← all]; exact List.cons_ne_nil _ _), ← written, lead]
    simp
  refine ⟨decl, ?_, ?_, ?_⟩
  · rw [lastGroup?, only, List.filterMap_cons_some (by rw [close]; rfl)]
    rfl
  · have broken : "package p\n\nimport (\n".toList.getLast? = some '\n' := by decide
    have every : ∀ line ∈ lineOffsets (byteLength "package p\n\nimport (\n".toList)
        (spacedLines (groupedImports setting imports)), line.2.IsLegible := by
      intro line member
      have snd := List.mem_map_of_mem (f := Prod.snd) member
      rw [map_snd_lineOffsets, filterMap_spacedLines] at snd
      exact held _ (mem_spacedLines.mpr snd)
    have both := List.forall₂_and_left _ _ |>.mpr
      ⟨fun line member => And.intro member (every line member), stand⟩
    -- Every line is covered by the import that is read on it.
    have same : List.Forall₂ Eq (placesIn setting (byteLength "package p\n\nimport (\n".toList)
        (spacedLines (groupedImports setting imports)))
        (placesOf setting (headed setting imports rest) decl) := by
      rw [placesIn, placesOf, List.forall₂_map_left_iff, List.forall₂_map_right_iff]
      exact both.imp fun line spec one =>
        (placedSpec_of_standsOn split broken one.1.1 one.1.2 one.2).symm
    rw [List.forall₂_eq_eq_eq] at same
    exact same.symm
  · rw [importsOf_of_single only, ← filterMap_spacedLines,
      ← map_snd_lineOffsets (byteLength "package p\n\nimport (\n".toList)]
    refine map_value_of_isImportOf ?_
    rw [List.forall₂_map_left_iff]
    exact stand.imp fun _ _ one => one.value

end Read

end Scaffold
