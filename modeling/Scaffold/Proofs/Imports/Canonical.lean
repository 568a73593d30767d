import Scaffold.Proofs.Imports.Formatted

/-! An import declaration has one text for all orders of its imports, and is read back from it. -/

namespace Scaffold

open Go

variable {setting : Option String} {imports : List Import}

section Order

/-- What the imports of a declaration are ordered by: the group, then the path, then the name. -/
def Import.placeKey (setting : Option String) (needed : Import) :
    Lex (Nat × Lex (String × WithBot String)) :=
  toLex ((importGroup setting needed.path).rank, needed.key)

/-- The imports of a declaration stand in order. -/
theorem flatten_groupedImports_pairwise (setting : Option String) (imports : List Import) :
    (groupedImports setting imports).flatten.Pairwise fun first second =>
      first.placeKey setting ≤ second.placeKey setting := by
  rw [groupedImports_eq, List.pairwise_flatten]
  constructor
  -- Within a group the order of imports decides.
  · intro part member
    obtain ⟨group, -, rfl⟩ := List.mem_map.mp (List.mem_filter.mp member).1
    refine List.Pairwise.imp_of_mem ?_ (sortOrdered_pairwise Import.isOrder_mayPrecede _)
    intro first second inside inside' before
    rw [Import.placeKey, Import.placeKey, Prod.Lex.toLex_le_toLex, (mem_partOf.mp inside).2,
      (mem_partOf.mp inside').2]
    exact .inr ⟨rfl, (Import.mayPrecede_iff first second).mp before⟩
  -- Imports of an earlier group come first.
  · have ranks : ImportGroup.all.Pairwise fun one other => one.rank < other.rank := by decide
    refine List.Pairwise.filter _ (List.pairwise_map.mpr (ranks.imp fun less => ?_))
    intro first inside second inside'
    rw [Import.placeKey, Import.placeKey, Prod.Lex.toLex_le_toLex, (mem_partOf.mp inside).2,
      (mem_partOf.mp inside').2]
    exact .inl less

end Order

section Apart

/-- The lines of imports, with an empty one between neighbours of different groups. -/
def apartLines (setting : Option String) : List Import → String
  | [] => ""
  | [last] => specLine last
  | first :: second :: others =>
    let between :=
      if importGroup setting first.path = importGroup setting second.path then "" else "\n"
    specLine first ++ between ++ apartLines setting (second :: others)

theorem apartLines_same {first second : Import}
    (same : importGroup setting first.path = importGroup setting second.path)
    (others : List Import) : apartLines setting (first :: second :: others) =
      specLine first ++ apartLines setting (second :: others) := by
  simp only [apartLines, if_pos same, String.append_empty]

theorem apartLines_other {first second : Import}
    (differ : importGroup setting first.path ≠ importGroup setting second.path)
    (others : List Import) : apartLines setting (first :: second :: others) =
      specLine first ++ "\n" ++ apartLines setting (second :: others) := by
  simp only [apartLines, if_neg differ]

variable {group : ImportGroup} {own rest : List Import}

/-- Between imports of one group there is no empty line. -/
theorem apartLines_own (same : ∀ needed ∈ own, importGroup setting needed.path = group) :
    apartLines setting own = linesOf own := by
  induction own with
  | nil => rfl
  | cons first own ih =>
    have inner := ih fun needed member => same needed (List.mem_cons_of_mem _ member)
    cases own with
    | nil => rw [linesOf_cons, apartLines, linesOf, List.map_nil, String.join_nil, String.append_empty]
    | cons second others =>
      rw [apartLines_same ((same first (by simp)).trans (same second (by simp)).symm), inner,
        linesOf_cons first]

/-- One empty line sets the imports of a group apart from those of others behind them. -/
theorem apartLines_append (same : ∀ needed ∈ own, importGroup setting needed.path = group)
    (differ : ∀ needed ∈ rest, importGroup setting needed.path ≠ group) (some : own ≠ [])
    (more : rest ≠ []) :
    apartLines setting (own ++ rest) = linesOf own ++ "\n" ++ apartLines setting rest := by
  obtain ⟨next, others, rfl⟩ := List.exists_cons_of_ne_nil more
  induction own with
  | nil => exact absurd rfl some
  | cons first own ih =>
    have here := same first (by simp)
    cases own with
    | nil =>
      have other := differ next (by simp)
      rw [List.singleton_append, apartLines_other (by rw [here]; exact other.symm), linesOf_cons,
        linesOf, List.map_nil, String.join_nil, String.append_empty]
    | cons second own =>
      have inner := ih (fun needed member => same needed (List.mem_cons_of_mem _ member))
        (List.cons_ne_nil _ _)
      rw [List.cons_append, List.cons_append,
        apartLines_same (here.trans (same second (by simp)).symm), ← List.cons_append, inner,
        linesOf_cons first, String.append_assoc, String.append_assoc, String.append_assoc]

/-- Different groups, joined by empty lines, are set apart by just these. -/
theorem joined_parts {groups : List ImportGroup} (distinct : groups.Nodup)
    (setting : Option String) (imports : List Import) :
    joined (filled (groups.map (partOf setting imports))) =
      (apartLines setting (filled (groups.map (partOf setting imports))).flatten).toList := by
  induction groups with
  | nil => rfl
  | cons group groups ih =>
    obtain ⟨absent, distinct⟩ := List.nodup_cons.mp distinct
    have inner := ih distinct
    have same : ∀ needed ∈ partOf setting imports group,
        importGroup setting needed.path = group := fun needed member => (mem_partOf.mp member).2
    -- What stands in the other groups is of one of them.
    have differ : ∀ needed ∈ (filled (groups.map (partOf setting imports))).flatten,
        importGroup setting needed.path ≠ group := by
      intro needed member here
      obtain ⟨part, inside, held⟩ := List.mem_flatten.mp member
      obtain ⟨other, listed, rfl⟩ := List.mem_map.mp (List.mem_filter.mp inside).1
      rw [(mem_partOf.mp held).2] at here
      exact absent (here ▸ listed)
    have parts : ∀ part ∈ filled (groups.map (partOf setting imports)), part ≠ [] :=
      fun part member => by simpa using (List.mem_filter.mp member).2
    rw [List.map_cons, filled, List.filter_cons, ← filled]
    generalize filled (groups.map (partOf setting imports)) = others at inner differ parts
    generalize partOf setting imports group = own at same
    split
    case isFalse none => exact inner
    case isTrue held =>
      have some : own ≠ [] := by simpa using held
      cases others with
      | nil => rw [joined_single, List.flatten_singleton, apartLines_own same]
      | cons next others =>
        have more : (next :: others).flatten ≠ [] :=
          List.append_ne_nil_of_left_ne_nil (parts next List.mem_cons_self) _
        have whole : (own :: next :: others).flatten = own ++ (next :: others).flatten := rfl
        rw [joined_cons_of_ne_nil own (List.cons_ne_nil _ _), inner, whole,
          apartLines_append same differ some more, String.toList_append, String.toList_append,
          List.append_assoc]
        rfl

/-- Between the parentheses of a declaration, empty lines stand just between its groups. -/
theorem groupedLines_eq (setting : Option String) (imports : List Import) :
    groupedLines setting imports = apartLines setting (groupedImports setting imports).flatten := by
  have groups : ImportGroup.all.Nodup := by decide
  rw [← String.toList_inj, groupedLines, ← flatMap_spacedLines, ← joined, groupedImports_eq,
    joined_parts groups]

theorem importBlock_apart (several : 2 ≤ imports.length) : importBlock setting imports =
    "\nimport (\n" ++ apartLines setting (groupedImports setting imports).flatten ++ ")\n" := by
  rcases imports with _ | ⟨first, _ | ⟨second, others⟩⟩
  · exact absurd several (by decide)
  · exact absurd several (by simp)
  · rw [← groupedLines_eq]
    simp only [importBlock]
    rfl

end Apart

section Read

theorem clauseAndBlock_toList (some : imports ≠ []) :
    ("package p" ++ importBlock setting imports).toList =
      "package p\n".toList ++ (declText setting imports ++ ['\n']) := by
  have lead : "package p\n".toList = "package p".toList ++ ['\n'] := by decide
  rw [String.toList_append, importBlock_eq setting some, lead, List.append_assoc]
  rfl

/-- The clause and the one declaration are all that is read. -/
theorem readsAs_clauseAndBlock (some : imports ≠ []) {property : Nat → ImportDecl → Prop}
    (reads : ReadsDecl (declText setting imports) property) :
    ∃ lexemes clause taken decl read offset,
      ReadsAs ("package p" ++ importBlock setting imports) lexemes
        [(.package clause, taken), (.imports decl, read)] ∧ property offset decl := by
  obtain ⟨-, new, lexes, tokens⟩ := reads
  have block : Lexes (declText setting imports ++ ['\n']) (new ++ [.blank '\n']) [] :=
    (lexes _).append (.cons (nextLexeme_blank (by decide) _) .nil)
  have whole := lexes_headed (clauseAndBlock_toList some) block
  obtain ⟨clause, taken, reach, items, -, -, ending, -, closed⟩ :=
    allItems_clause (by decide) whole rfl
  -- The line break ends the clause, and the block begins behind it.
  have first := tokenAt_break ending
  obtain ⟨-, ⟨decl, decls, holds⟩, ending', -⟩ := tokens (tokenAt reach (.blank '\n')).2
  have made : placeTokens reach (.blank '\n' :: (new ++ [.blank '\n'])) =
      reach.token .terminator ['\n'] :: (tokensFrom (tokenAt reach (.blank '\n')).2 new ++
        placeTokens (reachBehind (tokenAt reach (.blank '\n')).2 new) [.blank '\n']) := by
    rw [placeTokens_cons, first.1, List.singleton_append, placeTokens_append]
  generalize reachBehind (tokenAt reach (.blank '\n')).2 new = behind at made ending'
  generalize tokensFrom (tokenAt reach (.blank '\n')).2 new = read at made decls
  rw [made] at items closed
  -- The other break ends the block, and behind it the file ends.
  have last : placeTokens behind [.blank '\n'] =
      [behind.token .terminator ['\n'], (tokenAt behind (.blank '\n')).2.token .eof []] := by
    rw [placeTokens_cons, (tokenAt_break ending').1]
    rfl
  have more : read ++ placeTokens behind [.blank '\n'] ≠ [] := by simp [placeTokens_ne_nil]
  have inside : Closed (read ++ placeTokens behind [.blank '\n']) :=
    @Closed.of_append [_] _ closed more
  have further := inside.of_append (placeTokens_ne_nil _ _)
  have ends : endsItem (placeTokens behind [.blank '\n']) = true := by
    rw [last]
    rfl
  rw [allItems_terminator rfl inside, allItems_of_declRead further decls ends] at items
  rw [last] at items further
  have final : Closed [(tokenAt behind (.blank '\n')).2.token .eof []] :=
    @Closed.of_append [_] _ further (List.cons_ne_nil _ _)
  rw [allItems_terminator rfl final, allItems_eof rfl] at items
  exact ⟨_, clause, taken, decl, read, _, ⟨whole, items⟩, holds⟩

/-- Without imports only the clause is left. -/
theorem read_clause (path : FilePath) : (SourceFile.ofText path "package p").broken = false ∧
    (SourceFile.ofText path "package p").imports = [] := by
  rw [ofText_broken, SourceFile.imports, importDecls_ofText]
  have whole : (lexemes "package p".toList).2 = true ∧
      (allItems (placeTokens {} (lexemes "package p".toList).1)).2 = true ∧
      declsOf (allItems (placeTokens {} (lexemes "package p".toList).1)).1 = [] := by
    decide +kernel
  rw [whole.1, whole.2.1, whole.2.2]
  exact ⟨rfl, rfl⟩

end Read

/--
A declaration has the same text for all orders of its imports. Behind a package clause it is read
back without a breach as just these imports, by group, path and name; if they are several, neighbours
among them have one empty line between them where their groups differ, and none where they do not.
-/
theorem importBlock_canonical (setting : Option String) (path : FilePath) {imports : List Import}
    (sound : ∀ needed ∈ imports, needed.IsSound) :
    (∀ others : List Import, imports.Perm others →
      importBlock setting others = importBlock setting imports) ∧
    ∃ ordered : List Import, ordered.Perm imports ∧
      ordered.Pairwise (fun first second => first.placeKey setting ≤ second.placeKey setting) ∧
      (SourceFile.ofText path ("package p" ++ importBlock setting imports)).broken = false ∧
      (SourceFile.ofText path ("package p" ++ importBlock setting imports)).imports.map
        ImportSpec.value = ordered ∧
      (2 ≤ imports.length → importBlock setting imports =
        "\nimport (\n" ++ apartLines setting ordered ++ ")\n") := by
  refine ⟨fun others perm => (importBlock_perm perm).symm, _, flatten_groupedImports_perm setting _,
    flatten_groupedImports_pairwise setting imports, ?_⟩
  rw [← and_assoc]
  refine ⟨?_, importBlock_apart⟩
  by_cases none : imports = []
  · subst none
    obtain ⟨whole, bare⟩ := read_clause path
    exact ⟨whole, congrArg _ bare⟩
  · obtain ⟨lexemes, clause, taken, decl, read, offset, reads, values⟩ :=
      readsAs_clauseAndBlock none (isDeclText_declText setting none fun needed member =>
        (sound needed member).writable)
    refine ⟨reads.unbroken path, ?_⟩
    rw [← values, reads.imports path]
    simp [specsOf, declsOf]

/-- Imports of two groups, one of them under another name and one of them twice. -/
def mixedImports : List Import :=
  [⟨"os", none⟩, ⟨"a.b/c", some "d"⟩, ⟨"os", none⟩, ⟨"a.b/c", none⟩]

/-- An import that is written twice is read twice. -/
theorem importBlock_canonical_mixed : (∀ needed ∈ mixedImports, needed.IsSound) ∧
    ∃ ordered : List Import, ordered.Perm mixedImports ∧
      (SourceFile.ofText ⟨"p.go"⟩ ("package p" ++ importBlock none mixedImports)).imports.map
        ImportSpec.value = ordered ∧
      importBlock none mixedImports = "\nimport (\n" ++ apartLines none ordered ++ ")\n" := by
  have sound : ∀ needed ∈ mixedImports, needed.IsSound := by
    have plain : ∀ needed ∈ mixedImports, IsPlain needed.path := by
      unfold IsPlain
      decide
    have named : ∀ needed ∈ mixedImports, ∀ name ∈ needed.name, isName name.toList = true := by
      decide
    exact fun needed member => ⟨plain needed member, named needed member⟩
  obtain ⟨-, ordered, perm, -, -, read, lines⟩ := importBlock_canonical none ⟨"p.go"⟩ sound
  exact ⟨sound, ordered, perm, read, lines (by decide)⟩

example : importBlock none mixedImports =
    "\nimport (\n\t\"os\"\n\t\"os\"\n\n\t\"a.b/c\"\n\td \"a.b/c\"\n)\n" := by
  decide +kernel

end Scaffold
