import Scaffold.Proofs.Imports.Opening

/-! The text of an import declaration, and the declaration it is read back as. -/

namespace Scaffold

open Go

/-- The lines of some imports. -/
def linesOf (imports : List Import) : String :=
  String.join (imports.map specLine)

theorem linesOf_cons (needed : Import) (imports : List Import) :
    linesOf (needed :: imports) = specLine needed ++ linesOf imports := by
  rw [linesOf, List.map_cons, String.join_cons]
  rfl

theorem linesOf_append (first second : List Import) :
    linesOf (first ++ second) = linesOf first ++ linesOf second := by
  rw [linesOf, List.map_append, String.join_append]
  rfl

/-- Lines of imports are read back as these imports. -/
theorem specText_linesOf {imports : List Import} (writable : ∀ needed ∈ imports, IsWritable needed) :
    SpecText (linesOf imports).toList imports := by
  induction imports with
  | nil => exact .nil
  | cons needed imports ih =>
    rw [linesOf_cons, String.toList_append]
    exact .line (writable needed (by simp)) (ih fun other member => writable other (by simp [member]))

/-- The lines of groups, with an empty one between each two. -/
def spacedLines : List (List Import) → List (Option Import)
  | [] => []
  | [group] => group.map some
  | group :: next :: groups => group.map some ++ none :: spacedLines (next :: groups)

theorem flatMap_lineText_map (imports : List Import) :
    (imports.map some).flatMap lineText = (linesOf imports).toList := by
  induction imports with
  | nil => rfl
  | cons needed imports ih =>
    rw [List.map_cons, List.flatMap_cons, ih, linesOf_cons, String.toList_append]
    rfl

/-- Groups are written with an empty line between each two. -/
theorem flatMap_spacedLines (groups : List (List Import)) :
    (spacedLines groups).flatMap lineText = (joinStrings "\n" (groups.map linesOf)).toList := by
  rw [joinStrings, String.toList_ofList, List.map_map]
  induction groups with
  | nil => rfl
  | cons group groups ih =>
    cases groups with
    | nil => exact flatMap_lineText_map group
    | cons next groups =>
      rw [spacedLines, List.flatMap_append, List.flatMap_cons, ih, flatMap_lineText_map, List.map_cons,
        List.map_cons, List.map_cons, joinWith, ← List.append_assoc]
      rfl

theorem filterMap_spacedLines (groups : List (List Import)) :
    (spacedLines groups).filterMap id = groups.flatten := by
  induction groups with
  | nil => rfl
  | cons group groups ih =>
    have own : (group.map some).filterMap id = group := by simp
    cases groups with
    | nil => rw [spacedLines, own, List.flatten_cons, List.flatten_nil, List.append_nil]
    | cons next groups =>
      rw [spacedLines, List.filterMap_append, own, List.filterMap_cons_none rfl, ih]
      rfl

theorem mem_spacedLines {groups : List (List Import)} {needed : Import} :
    some needed ∈ spacedLines groups ↔ needed ∈ groups.flatten := by
  rw [← filterMap_spacedLines, List.mem_filterMap]
  simp

/-- Every import stands in one of the groups. -/
theorem flatten_groupedImports_perm (setting : Option String) (imports : List Import) :
    (groupedImports setting imports).flatten.Perm imports := by
  have sorted : ∀ groups : List (List Import),
      (groups.map Import.sorted).flatten.Perm groups.flatten := by
    intro groups
    induction groups with
    | nil => exact .refl _
    | cons group groups ih => exact (sortOrdered_perm _ group).append ih
  have filled : ∀ groups : List (List Import),
      (groups.filter fun group => !group.isEmpty).flatten = groups.flatten := by
    intro groups
    induction groups with
    | nil => rfl
    | cons group groups ih =>
      cases group with
      | nil => simpa using ih
      | cons needed group => simp [ih]
  refine (sorted _).trans ?_
  rw [filled]
  induction imports with
  | nil => exact .refl _
  | cons needed imports ih =>
    simp only [ImportGroup.all, List.map_cons, List.map_nil, List.flatten_cons, List.flatten_nil,
      List.append_nil, List.filter_cons] at ih ⊢
    cases importGroup setting needed.path with
    | standard => exact ih.cons needed
    | foreign => exact List.perm_middle.trans (ih.cons needed)
    | own =>
      refine (List.Perm.append_left _ List.perm_middle).trans ?_
      exact List.perm_middle.trans (ih.cons needed)

/-- The lines of a declaration in its groups. -/
def groupedLines (setting : Option String) (imports : List Import) : String :=
  joinStrings "\n" ((groupedImports setting imports).map linesOf)

/-- The characters of a declaration, without the line breaks around it. -/
def declText (setting : Option String) : List Import → List Char
  | [] => []
  | [single] => "import ".toList ++ single.spec.toList
  | first :: second :: others =>
    "import (\n".toList ++ (groupedLines setting (first :: second :: others)).toList ++ [')']

theorem declText_single (setting : Option String) (single : Import) :
    declText setting [single] = "import ".toList ++ single.spec.toList :=
  rfl

theorem declText_several (setting : Option String) (first second : Import)
    (others : List Import) : declText setting (first :: second :: others) =
      "import (\n".toList ++ (groupedLines setting (first :: second :: others)).toList ++ [')'] :=
  rfl

/-- A declaration stands on lines of its own. -/
theorem importBlock_eq (setting : Option String) {imports : List Import} (some : imports ≠ []) :
    (importBlock setting imports).toList = '\n' :: declText setting imports ++ ['\n'] := by
  rcases imports with _ | ⟨single, _ | ⟨second, others⟩⟩
  · exact absurd rfl some
  · have whole : importBlock setting [single] = "\nimport " ++ single.spec ++ "\n" := by
      rw [importBlock]
    have lead : "\nimport ".toList = '\n' :: "import ".toList := by decide
    rw [whole, String.toList_append, String.toList_append, lead]
    rfl
  · have whole : importBlock setting (single :: second :: others) =
        "\nimport (\n" ++ groupedLines setting (single :: second :: others) ++ ")\n" := by
      simp only [importBlock]
      rfl
    have lead : "\nimport (\n".toList = '\n' :: "import (\n".toList := by decide
    have trail : ")\n".toList = [')'] ++ ['\n'] := by decide
    rw [whole, declText_several, String.toList_append, String.toList_append, lead, trail]
    simp only [List.cons_append, List.append_assoc]

/-- A text that is read as a declaration with a property, whatever stands around it. -/
def ReadsDecl (text : List Char) (property : Nat → ImportDecl → Prop) : Prop :=
  "import".toList <+: text ∧ ∃ lexemes, (∀ rest, Lexes (text ++ rest) lexemes rest) ∧ ∀ reach : Reach,
    (∃ more, tokensFrom reach lexemes = reach.token .keyword "import".toList :: more) ∧
    (∃ decl, DeclRead (tokensFrom reach lexemes) decl ∧ property reach.offset decl) ∧
    (reachBehind reach lexemes).ending = true ∧ (reachBehind reach lexemes).gap = []

/-- A text that is read as a declaration of some imports. -/
def IsDeclText (text : List Char) (imports : List Import) : Prop :=
  ReadsDecl text fun _ decl => decl.specs.map ImportSpec.value = imports

/-- What is read with a property is read with each that follows from it. -/
theorem ReadsDecl.imp {text : List Char} {property other : Nat → ImportDecl → Prop}
    (reads : ReadsDecl text property)
    (follows : ∀ offset decl, property offset decl → other offset decl) : ReadsDecl text other := by
  obtain ⟨lead, lexemes, lexes, tokens⟩ := reads
  refine ⟨lead, lexemes, lexes, fun reach => ?_⟩
  obtain ⟨key, ⟨decl, read, holds⟩, last⟩ := tokens reach
  exact ⟨key, ⟨decl, read, follows _ decl holds⟩, last⟩

/-- The keyword is read in front of a blank. -/
theorem lexes_import (rest : List Char) : Lexes ("import ".toList ++ rest)
    [.token .keyword "import".toList, .blank ' '] rest := by
  have whole : "import ".toList ++ rest = 'i' :: (['m', 'p', 'o', 'r', 't'] ++ ' ' :: rest) := rfl
  have word : nextLexeme 'i' (['m', 'p', 'o', 'r', 't'] ++ ' ' :: rest) =
      some (wordLexeme ['i', 'm', 'p', 'o', 'r', 't'], ' ' :: rest) :=
    nextLexeme_word (by decide) (List.all_eq_true.mp (by decide)) (by rintro d ⟨⟩; decide)
  have keyword : wordLexeme ['i', 'm', 'p', 'o', 'r', 't'] =
      .token .keyword "import".toList := by decide
  rw [whole]
  exact .cons (keyword ▸ word) (.cons (nextLexeme_blank (by decide) rest) .nil)

/-- Behind the keyword and a blank no statement ends. -/
theorem tokensFrom_import (reach : Reach) (more : List Lexeme) : ∃ behind : Reach,
    tokensFrom reach (.token .keyword "import".toList :: .blank ' ' :: more) =
      reach.token .keyword "import".toList :: tokensFrom behind more ∧
    reachBehind reach (.token .keyword "import".toList :: .blank ' ' :: more) =
      reachBehind behind more ∧
    behind.offset = reach.offset + byteLength "import ".toList :=
  ⟨_, rfl, rfl, rfl⟩

/-- A declaration without parentheses covers its text and declares its import. -/
theorem readsDecl_single {needed : Import} (writable : IsWritable needed) :
    ReadsDecl ("import ".toList ++ needed.spec.toList) fun offset decl =>
      decl.start = offset ∧
      decl.stop = offset + byteLength ("import ".toList ++ needed.spec.toList) ∧
      decl.close = none ∧ decl.specs.map ImportSpec.value = [needed] := by
  refine ⟨⟨' ' :: needed.spec.toList, rfl⟩, [.token .keyword "import".toList, .blank ' '] ++
    specLexemes needed, fun rest => ?_, fun reach => ?_⟩
  · rw [List.append_assoc]
    exact (lexes_import _).append (lexes_spec writable rest)
  · obtain ⟨behind, tokens, last, offset⟩ := tokensFrom_import reach (specLexemes needed)
    obtain ⟨spec, read, value, -, stop, ending, gap⟩ := tokensFrom_spec behind writable
    rw [reachBehind_offset, offset, lexemeChars_specLexemes writable, Nat.add_assoc,
      ← byteLength_append] at stop
    rw [List.cons_append, List.singleton_append, tokens, last]
    exact ⟨⟨_, rfl⟩, ⟨_, .single rfl read, rfl, stop, rfl,
      map_value_of_isImportOf (.cons value .nil)⟩, ending, gap⟩

/-- A declaration with parentheses declares the imports on the lines between them. -/
theorem readsDecl_group {lines : List (Option Import)}
    (writable : ∀ needed, some needed ∈ lines → IsWritable needed) :
    ReadsDecl ("import (\n".toList ++ lines.flatMap lineText ++ [')']) fun offset decl =>
      decl.close = some (offset + byteLength ("import (\n".toList ++ lines.flatMap lineText)) ∧
      List.Forall₂ StandsOn (lineOffsets (offset + byteLength "import (\n".toList) lines)
        decl.specs := by
  refine ⟨⟨' ' :: '(' :: '\n' :: (lines.flatMap lineText ++ [')']), rfl⟩,
    [.token .keyword "import".toList, .blank ' '] ++ (.token .mark ['('] :: .blank '\n' ::
      (lines.flatMap lineLexemes ++ [.token .mark [')']])), fun rest => ?_, fun reach => ?_⟩
  · have whole : "import (\n".toList ++ lines.flatMap lineText ++ [')'] ++ rest =
        "import ".toList ++ ('(' :: '\n' :: (lines.flatMap lineText ++ ')' :: rest)) := by simp
    rw [whole]
    refine (lexes_import _).append (.cons (nextLexeme_open _) (.cons (nextLexeme_blank (by decide) _) ?_))
    exact (lexes_lines writable _).append (.cons (nextLexeme_close rest) .nil)
  · obtain ⟨behind, made, last, offset⟩ := tokensFrom_import reach
      (.token .mark ['('] :: .blank '\n' ::
        (lines.flatMap lineLexemes ++ [.token .mark [')']]))
    rw [List.cons_append, List.singleton_append, made, last]
    -- Behind the parenthesis the line break ends no statement.
    have open' := tokenAt_blank (behind.behindToken .mark ['(']) '\n' (.inr rfl)
    have from' := tokenAt_offset (behind.behindToken .mark ['(']) (.blank '\n')
    generalize inside : tokenAt (behind.behindToken .mark ['(']) (.blank '\n') = pair at open' from'
    obtain ⟨specs, all, stand, unended⟩ := tokensFrom_lines writable pair.2 open'.2
    have inner : tokensFrom behind (.token .mark ['('] :: .blank '\n' ::
        (lines.flatMap lineLexemes ++ [.token .mark [')']])) = behind.token .mark ['('] ::
          (tokensFrom pair.2 (lines.flatMap lineLexemes) ++
            [(reachBehind pair.2 (lines.flatMap lineLexemes)).token .mark [')']]) := by
      rw [tokensFrom, tokensFrom, tokenAt, inside, open'.1, List.nil_append, tokensFrom_append]
      rfl
    have final : reachBehind behind (.token .mark ['('] :: .blank '\n' ::
        (lines.flatMap lineLexemes ++ [.token .mark [')']])) =
          (reachBehind pair.2 (lines.flatMap lineLexemes)).behindToken .mark [')'] := by
      rw [reachBehind, reachBehind, tokenAt, inside, reachBehind_append]
      rfl
    have first : pair.2.offset = reach.offset + byteLength "import (\n".toList := by
      have lead : byteLength "import (\n".toList = byteLength "import ".toList + 2 := by decide
      have mark : (behind.behindToken .mark ['(']).offset = behind.offset + 1 := rfl
      have break' : byteLength (Lexeme.blank '\n').chars = 1 := rfl
      rw [from', mark, break', offset, lead]
      omega
    have close : (reachBehind pair.2 (lines.flatMap lineLexemes)).offset =
        reach.offset + byteLength ("import (\n".toList ++ lines.flatMap lineText) := by
      rw [reachBehind_offset, first, lexemeChars_lines writable, byteLength_append, Nat.add_assoc]
    rw [inner, final]
    exact ⟨⟨_, rfl⟩, ⟨_, .group rfl rfl (.ended all) rfl, congrArg some close, first ▸ stand⟩, rfl,
      rfl⟩

/-- The text of a declaration is read back as the imports it declares, in the order they are
written. -/
theorem isDeclText_declText (setting : Option String) {imports : List Import} (some : imports ≠ [])
    (writable : ∀ needed ∈ imports, IsWritable needed) :
    IsDeclText (declText setting imports) (groupedImports setting imports).flatten := by
  rcases imports with _ | ⟨single, _ | ⟨second, others⟩⟩
  · exact absurd rfl some
  · rw [List.perm_singleton.mp (flatten_groupedImports_perm setting [single])]
    exact (readsDecl_single (writable single (by simp))).imp fun _ _ holds => holds.2.2.2
  · have held : ∀ needed, Option.some needed ∈ spacedLines (groupedImports setting
        (single :: second :: others)) → IsWritable needed := by
      intro needed member
      exact writable needed ((flatten_groupedImports_perm setting _).mem_iff.mp
        (mem_spacedLines.mp member))
    have group := readsDecl_group held
    rw [flatMap_spacedLines] at group
    refine group.imp fun offset decl holds => ?_
    rw [← filterMap_spacedLines, ← map_snd_lineOffsets (offset + byteLength "import (\n".toList)]
    refine map_value_of_isImportOf ?_
    rw [List.forall₂_map_left_iff]
    exact holds.2.imp fun _ _ one => one.value

end Scaffold
