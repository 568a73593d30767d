import Scaffold.Proofs.Go.Header
import Scaffold.Proofs.Imports.Room
import Scaffold.Proofs.Test.Addition

/-! The file that a test is put behind: what was there, or a new head, with the imports merged in. -/

namespace Scaffold

open Go

/-- The text that is there before a test and its imports are added. -/
def Destination.head : Destination → String
  | .fresh _ header => header
  | .existing file => file.text

/-- The head of a file: a package clause at the end of its last line, and no imports. -/
structure IsHead (header : String) : Prop where
  unbroken : (importsFile header).broken = false
  bare : (importsFile header).importDecls = []
  clause : ∃ front clause, header = front ++ "\n" ∧ (importsFile header).package? = some clause ∧
    clause.stop = byteLength front.toList

/-- Whether some imports can be merged into what is there. -/
def Destination.HasRoomFor (setting : Option String) (imports : List Import) : Destination → Prop
  | .fresh _ header => IsHead header
  | .existing file => (importsFile file.text).broken = false ∧
      ∀ needed ∈ imports, needed ∉ importsOf file.text → Scaffold.HasRoomFor setting file.text needed

variable {setting : Option String} {imports : List Import}

/-- A file without imports lacks all of them. -/
theorem missingImports_of_bare {text : String} (bare : (importsFile text).importDecls = [])
    (ordered : imports.Pairwise fun one other => one.path < other.path) :
    missingImports (importsFile text) imports = imports := by
  have none : importsOf text = [] := by
    rw [importsOf, SourceFile.imports, bare]
    rfl
  have distinct : imports.Nodup :=
    ordered.imp fun less same => by rw [same] at less; exact lt_irrefl _ less
  have perm : (missingImports (importsFile text) imports).Perm imports := by
    refine (List.perm_ext_iff_of_nodup (nodup_missingImports _ imports) distinct).mpr fun needed => ?_
    rw [mem_missing, none]
    simp
  -- Both are in the one order of imports.
  refine perm.eq_of_pairwise (fun one other _ _ => Import.mayPrecede_antisymm one other)
    (missingImports_pairwise _ imports) (ordered.imp fun {one other} less => ?_)
  rw [Import.mayPrecede, if_neg (by simpa using less.ne), decide_eq_true less]

/-- The block behind the head of a file is what a merge into the head makes. -/
theorem mergesTo_of_isHead {header : String} (head : IsHead header)
    (sound : ∀ needed ∈ imports, needed.IsSound)
    (ordered : imports.Pairwise fun one other => one.path < other.path) :
    MergesTo setting header imports (header ++ importBlock setting imports) := by
  obtain ⟨front, clause, rfl, found, here⟩ := head.clause
  have all := missingImports_of_bare head.bare ordered
  obtain ⟨lexemes, items, reads⟩ := readsAs_of_unbroken head.unbroken
  by_cases nothing : imports = []
  · subst nothing
    have same : front ++ "\n" ++ importBlock setting [] = front ++ "\n" := String.append_empty
    rw [same]
    exact mergesTo_of_none reads all
  have undeclared : (importsFile (front ++ "\n")).importDecls.getLast? = none := by
    rw [head.bare]
    rfl
  obtain ⟨merged, merges⟩ : ∃ merged, MergesTo setting _ imports merged :=
    mergesTo_of_package reads sound (by rwa [all]) undeclared found
  -- The one edit puts the block behind the clause, in front of the break at the end.
  obtain ⟨edits, made, applied⟩ := merges.applies
  rw [importEdits_of_package (by rwa [all]) undeclared found, all] at made
  cases made
  have split : (front ++ "\n").toList = front.toList ++ ['\n'] := String.toList_append
  rw [here, applyEdits_insertion split] at applied
  have same : front ++ "\n" ++ importBlock setting imports = merged := by
    rw [← Except.ok.inj applied, ← String.toList_inj, String.toList_ofList, String.toList_append,
      String.toList_append, String.toList_append, trimEndBreaks_importBlock setting nothing,
      importBlock_eq setting nothing]
    simp
  rw [same]
  exact merges

/-- The name of an external test package is a name. -/
theorem isName_external {name : String} (is : isName name.toList = true) :
    isName (name ++ "_test").toList = true := by
  -- No keyword has an underscore.
  have plain : ∀ keyword ∈ keywords, '_' ∉ keyword.toList := by decide
  have free : keywords.contains (name ++ "_test") = false := by
    rw [← Bool.not_eq_true, List.contains_iff_mem]
    exact fun member => plain _ member (by rw [String.toList_append]; simp)
  have ending : "_test".toList.all Unicode.isIdentifierContinue = true := by decide
  have whole : name ++ "_test" = String.ofList (name.toList ++ "_test".toList) := by simp
  rw [whole] at free
  rw [String.toList_append]
  cases chars : name.toList with
  | nil =>
    rw [chars] at is
    cases is
  | cons c more =>
    rw [chars] at is free
    simp only [isName, Bool.and_eq_true] at is
    rw [List.cons_append, isName, is.1.1, List.all_append, is.1.2, ending, ← List.cons_append, free]
    rfl

/-- Behind elements without tokens, a package clause is all that is read. -/
theorem readsAs_of_lead (lead : List Lexeme) {name : String} (is : isName name.toList = true)
    (reads : FileLexes (lexemeChars lead ++ ("package " ++ name ++ "\n").toList) lead
      ("package " ++ name ++ "\n").toList) (none : tokensFrom {} lead = []) : ∃ taken,
    ReadsAs (String.ofList (lexemeChars lead) ++ ("package " ++ name ++ "\n"))
      (lead ++ (clauseLexemes name ++ [.blank '\n'])) [(.package (clauseBehind lead name), taken)] := by
  have clause : Lexes ("package " ++ name ++ "\n").toList
      (clauseLexemes name ++ [.blank '\n']) [] := by
    rw [String.toList_append]
    exact (lexes_clause is (by rintro d ⟨⟩; decide)).append (.cons (nextLexeme_blank (by decide) _) .nil)
  have lexes : FileLexes (String.ofList (lexemeChars lead) ++ ("package " ++ name ++ "\n")).toList
      (lead ++ (clauseLexemes name ++ [.blank '\n'])) [] := by
    rw [String.toList_append, String.toList_ofList]
    exact reads.append clause
  obtain ⟨taken, reach, items, -, ending, -, closed⟩ := allItems_clauseBehind is lexes none
  -- Behind the clause only its line and the file end.
  have behind : allItems (placeTokens reach [.blank '\n']) = ([], true) := by
    rw [placeTokens_cons, (tokenAt_break ending).1] at closed ⊢
    have finish : Closed (placeTokens (tokenAt reach (.blank '\n')).2 []) :=
      closed.of_append (placeTokens_ne_nil _ _)
    exact (allItems_terminator rfl finish).trans (allItems_eof rfl)
  rw [behind] at items
  exact ⟨taken, lexes, items⟩

/-- Behind elements without tokens, a package clause makes the head of a file. -/
theorem isHead_of_lead (lead : List Lexeme) {name : String} (is : isName name.toList = true)
    (reads : FileLexes (lexemeChars lead ++ ("package " ++ name ++ "\n").toList) lead
      ("package " ++ name ++ "\n").toList) (none : tokensFrom {} lead = []) :
    IsHead (String.ofList (lexemeChars lead) ++ ("package " ++ name ++ "\n")) := by
  obtain ⟨taken, read⟩ := readsAs_of_lead lead is reads none
  have found : (importsFile (String.ofList (lexemeChars lead) ++
      ("package " ++ name ++ "\n"))).package? = some (clauseBehind lead name) := by
    rw [importsFile, SourceFile.package?, read.items_eq]
    rfl
  refine ⟨read.unbroken _, read.importDecls _, String.ofList (lexemeChars lead) ++
    ("package " ++ name), _, ?_, found, ?_⟩
  · simp only [String.append_assoc]
  · rw [clauseBehind, String.toList_append (s := String.ofList (lexemeChars lead)),
      String.toList_ofList]

/-- A notice and an empty line are read in front of any clause, and make no tokens. -/
theorem lexes_noticeLead {lead : List Lexeme} {notice : String}
    (chars : lexemeChars lead = notice.toList) (gap : IsGap lead)
    (again : ∀ rest, FileLexes (notice.toList ++ '\n' :: rest) lead ('\n' :: rest))
    (clause : List Char) :
    FileLexes (lexemeChars (lead ++ [.blank '\n', .blank '\n']) ++ clause)
      (lead ++ [.blank '\n', .blank '\n']) clause ∧
    tokensFrom {} (lead ++ [.blank '\n', .blank '\n']) = [] ∧
    String.ofList (lexemeChars (lead ++ [.blank '\n', .blank '\n'])) = notice ++ "\n\n" := by
  have breaks : Lexes ('\n' :: '\n' :: clause) [.blank '\n', .blank '\n'] clause :=
    .cons (nextLexeme_blank (by decide) _) (.cons (nextLexeme_blank (by decide) _) .nil)
  refine ⟨by simpa [chars, Lexeme.chars] using (again _).append breaks,
    ((gap.append ((IsGap.blank '\n').append (.blank '\n'))) {} rfl).1, ?_⟩
  rw [← String.toList_inj]
  simp [chars, Lexeme.chars]

/-- The head of a new test file is the notice of the tested file, an empty line and the clause. -/
theorem newFileHeader_of_notice {file : SourceFile} {notice : String}
    (found : file.copyrightNotice? = some notice) (name : String) :
    newFileHeader file name = notice ++ "\n\n" ++ ("package " ++ (name ++ "_test") ++ "\n") := by
  rw [newFileHeader, found, ← String.toList_inj]
  simp

/-- A new file begins with its head, whether the tested file has a notice or not. -/
theorem isHead_newFileHeader {path : FilePath} {text name : String}
    (is : isName name.toList = true) : IsHead (newFileHeader (.ofText path text) name) := by
  have external := isName_external is
  cases found : (SourceFile.ofText path text).copyrightNotice? with
  | some notice =>
    obtain ⟨lead, chars, gap, again⟩ := lexes_notice found
    obtain ⟨reads, none, same⟩ := lexes_noticeLead chars gap again _
    rw [newFileHeader_of_notice found, ← same]
    exact isHead_of_lead _ external reads none
  | none =>
    have unmarked : ∀ c, ("package " ++ (name ++ "_test") ++ "\n").toList.head? = some c →
        c.toNat ≠ 0xFEFF := by
      intro c is
      obtain rfl : 'p' = c := by simpa using is
      decide
    have whole := isHead_of_lead [] external (.plain unmarked .nil) rfl
    have same : newFileHeader (.ofText path text) name =
        String.ofList (lexemeChars []) ++ ("package " ++ (name ++ "_test") ++ "\n") := by
      rw [newFileHeader, found, ← String.toList_inj]
      simp
    exact same ▸ whole

/--
A planned test is added if there is room for its imports.

It comes behind a file that is what was there with the imports merged in.
-/
theorem addTest_merges {tree : FileTree} {location : Location} {subject : Subject}
    {site : TestSite} {test : String}
    (planned : IsPlanned tree setting location subject site imports test)
    (sound : ∀ needed ∈ imports, needed.IsSound)
    (ordered : imports.Pairwise fun one other => one.path < other.path)
    (room : site.destination.HasRoomFor setting imports) :
    ∃ changes base, addTest (tree.workspace setting) location = .ok changes ∧
      preview (tree.workspace setting) changes =
        .ok ⟨[(testFilePath location.path, base ++ test)]⟩ ∧
      MergesTo setting site.destination.head imports base := by
  have added := addTest_of_planned planned
  have sited := planned.sited
  cases held : tree.read? (testFilePath location.path) with
  | none =>
    rw [held, siteOf] at sited
    cases sited
    exact ⟨_, _, added, preview_created held (applyEdits_empty _ _ _),
      mergesTo_of_isHead room sound ordered⟩
  | some text =>
    rw [held] at sited
    obtain ⟨package, declared, sited⟩ := Except.of_bind_eq_ok sited
    obtain ⟨names, -, sited⟩ := Except.of_bind_eq_ok sited
    cases sited
    rw [Destination.HasRoomFor, ofText_text] at room
    rw [Destination.head, ofText_text]
    obtain ⟨unbroken, room⟩ := room
    obtain ⟨lexemes, items, reads⟩ := readsAs_of_unbroken unbroken
    -- A package is told by its clause.
    have clause : (importsFile text).package?.isSome = true := by
      rw [testPackage] at declared
      split at declared
      · cases declared
      · rename_i name named
        obtain ⟨clause, found, -⟩ := Option.map_eq_some_iff.mp named
        exact Option.isSome_iff_exists.mpr ⟨clause, found⟩
    obtain ⟨base, merges⟩ := exists_mergesTo reads clause sound room
    obtain ⟨edits, made, applied⟩ := merges.applies
    have merge : mergeImports setting (.ofText (testFilePath location.path) text) imports =
        .ok edits := (mergeImports_path setting _ _ text imports).trans made
    rw [Destination.changes, merge] at added
    exact ⟨_, base, added, preview_edited held (applyEdits_concat test applied), merges⟩

end Scaffold
