import Scaffold.Proofs.Imports.Merge

/-! Which files have room for more imports: a merge into these makes what it should. -/

namespace Scaffold

open Go

/-- The places of the imports that a declaration of a text has already. -/
def placesOf (setting : Option String) (text : String) (decl : ImportDecl) : List PlacedSpec :=
  decl.specs.map (placedSpec (importsFile text).lines setting)

/--
Whether lines of a new import can be put at the place that is chosen for them.

A declaration that makes room by parentheses must have a path that can be written between quotes.
-/
def HasRoomFor (setting : Option String) (text : String) (needed : Import) : Prop :=
  match lastGroup? (importsFile text) with
  | some (decl, close) =>
    isInline (placesOf setting text decl) close = true ∨ Opening (lexemes text.toList).1
      (placeImport setting (placesOf setting text decl) close needed).offset
  | none =>
    ∀ decl, (importsFile text).importDecls.getLast? = some decl →
      ∀ spec ∈ decl.specs, IsReadable spec.path

variable {setting : Option String} {text : String} {imports : List Import}
  {lexemes : List Lexeme} {items : List (Item × List Token)}

theorem importDecls_eq (reads : ReadsAs text lexemes items) :
    (importsFile text).importDecls = declsOf items :=
  reads.importDecls _

theorem importEdits_eq (setting : Option String) (text : String) (imports : List Import) :
    importEdits setting text imports = mergeImports setting (importsFile text) imports := rfl

/-- One insertion at a cut. -/
theorem applyEdits_insertion {kept tail : List Char} (split : text.toList = kept ++ tail)
    (new : String) : applyEdits text [.insertion (byteLength kept) new] =
      .ok (String.ofList (kept ++ new.toList ++ tail)) := by
  have made := applyEdits_replacement kept [] tail new
  rw [List.nil_append, ← split, String.ofList_toList] at made
  exact made

/-- A new import stands where a line begins, unless the lines run past the parenthesis. -/
theorem beginsLine_placeImport {decl : ImportDecl} {close : Nat}
    (member : decl ∈ (importsFile text).importDecls) (closes : decl.close = some close)
    (lines : isInline (placesOf setting text decl) close = false) (needed : Import) :
    BeginsLine text.toList
      (placeImport setting (placesOf setting text decl) close needed).offset := by
  rw [isInline, Bool.or_eq_false_iff] at lines
  obtain ⟨some, within⟩ := lines
  rcases offset_placeImport setting (placesOf setting text decl) close needed with
    ⟨place, inside, place_eq⟩ | ⟨none, -⟩
  · have short : ¬close < place.lineStop := by
      have := List.any_eq_false.mp within place inside
      simpa using this
    obtain ⟨spec, -, rfl⟩ := List.mem_map.mp inside
    rcases place_eq with start | stop
    · rw [start]
      exact (lineStart_spec text spec.start).1
    · rw [stop]
      rcases lineStop_spec text spec.stop with ⟨begins, -⟩ | ⟨final, -⟩
      · exact begins
      · -- The parenthesis stands in front of the end of the text.
        obtain ⟨-, cut, -, before⟩ := isCut_of_decl member
        have below := (before close closes).2
        have within := cut.le
        have short : ¬close < (LineIndex.ofText text).lineStop spec.stop := short
        omega
  · rw [none] at some
    cases some

/-- No lines can be put in front of everything. -/
theorem behindBreak_of_opening {offset : Nat} (reads : FileLexes text.toList lexemes [])
    (begins : BeginsLine text.toList offset) (opening : Opening lexemes offset) :
    BehindBreak text.toList offset := by
  obtain ⟨kept, tail, split, rfl, rfl | broken⟩ := begins
  · obtain ⟨before, behind, rfl, none, inside⟩ := opening
    have empty : before = [] := by
      by_contra some
      obtain ⟨between, front, -⟩ := reads.split (.inl some)
      exact some (front.eq_nil (eq_nil_of_byteLength none))
    obtain ⟨front, key, opened, done, specs, tokens, -⟩ := inside
    rw [empty, tokensFrom] at tokens
    simp at tokens
  · exact ⟨kept, tail, split, rfl, broken⟩

section Routes

variable {decl : ImportDecl} {close : Nat}

theorem missing_writable (sound : ∀ needed ∈ imports, needed.IsSound) :
    ∀ needed ∈ missingImports (importsFile text) imports, IsWritable needed :=
  fun needed member => (sound needed (mem_missing.mp member).1).writable

/-- No edits are made for a file that lacks nothing. -/
theorem importEdits_of_none (none : missingImports (importsFile text) imports = []) :
    importEdits setting text imports = .ok [] := by
  rw [importEdits_eq, mergeImports, none]

theorem applyEdits_nil (text : String) : applyEdits text [] = .ok text := by
  rw [applyEdits_eq]
  have nothing : applyOrdered (byteLength text.toList) 0 text.toList (orderEdits []) =
      .ok text.toList := rfl
  rw [nothing]
  exact congrArg Except.ok String.ofList_toList

/-- A file that lacks nothing is left as it is. -/
theorem mergesTo_of_none (reads : ReadsAs text lexemes items)
    (none : missingImports (importsFile text) imports = []) :
    MergesTo setting text imports text :=
  mergesTo_of_gains (importEdits_of_none none) (applyEdits_nil text) reads reads (.refl items)
    (none ▸ .refl [])

/-- Imports are put into the last declaration with parentheses. -/
theorem importEdits_of_group (lacks : missingImports (importsFile text) imports ≠ [])
    (found : lastGroup? (importsFile text) = some (decl, close)) :
    importEdits setting text imports = .ok (blockEdits setting (placesOf setting text decl) close
      (missingImports (importsFile text) imports)) := by
  rw [importEdits_eq, mergeImports]
  split
  · exact absurd ‹_› lacks
  · rw [found]
    rfl

/-- Lines at the openings of a declaration are imports of it. -/
theorem mergesTo_of_lines (reads : ReadsAs text lexemes items)
    (sound : ∀ needed ∈ imports, needed.IsSound)
    (lacks : missingImports (importsFile text) imports ≠ [])
    (found : lastGroup? (importsFile text) = some (decl, close))
    (lines : isInline (placesOf setting text decl) close = false)
    (openings : ∀ needed ∈ missingImports (importsFile text) imports,
      Opening lexemes (placeImport setting (placesOf setting text decl) close needed).offset) :
    ∃ merged, MergesTo setting text imports merged := by
  obtain ⟨member, closes⟩ := lastGroup?_eq_some found
  obtain ⟨edits, ascending, perm⟩ := blockEdits_lines lines (missing_writable sound)
    fun needed wanted => ⟨openings needed wanted, behindBreak_of_opening reads.lexes
      (beginsLine_placeImport member closes lines needed) (openings needed wanted)⟩
  obtain ⟨out, lexemes', items', applied, reads', gains, -⟩ := reads.insertAll ascending edits
  refine ⟨String.ofList out,
    mergesTo_of_gains (importEdits_of_group lacks found) ?_ reads reads' gains perm⟩
  rw [applyEdits_eq, orderEdits_of_pairwise ascending, applied]
  rfl

/-- Lines in front of the parenthesis of a declaration are imports of it. -/
theorem mergesTo_of_inline (reads : ReadsAs text lexemes items)
    (sound : ∀ needed ∈ imports, needed.IsSound)
    (lacks : missingImports (importsFile text) imports ≠ [])
    (found : lastGroup? (importsFile text) = some (decl, close))
    (inline : isInline (placesOf setting text decl) close = true) :
    ∃ merged, MergesTo setting text imports merged := by
  obtain ⟨member, closes⟩ := lastGroup?_eq_some found
  obtain ⟨kept, tail, split, here⟩ := ((isCut_of_decl member).2.2.2 close closes).1
  obtain ⟨lexemes', items', reads', gains⟩ := reads.insertInside (importDecls_eq reads ▸ member)
    closes split here (specText_linesOf (missing_writable sound))
  have applied := applyEdits_insertion split (String.join ((missingImports (importsFile text)
    imports).map fun needed => "\n\t" ++ needed.spec) ++ "\n")
  rw [inlineText_eq, here, ← blockEdits_of_inline inline] at applied
  exact ⟨_, mergesTo_of_gains (importEdits_of_group lacks found) applied reads reads' gains (.refl _)⟩

/-- Words that are read are names. -/
theorem isName_of_token {front rest : List Token} {token : Token}
    (reads : FileLexes text.toList lexemes [])
    (made : placeTokens {} lexemes = front ++ token :: rest) (word : token.kind = .word) :
    isName token.text.toList = true := by
  obtain ⟨before, behind, chars, tail, stands, rfl, -⟩ := reads.stands made (by simp [word])
  have element : Lexeme.token token.kind chars ∈ before ++ .token token.kind chars :: behind := by
    simp
  have text : token.text.toList = chars := by rw [stands.made, Reach.token, String.toList_ofList]
  rw [text]
  exact (reads.kind element).2 word

/-- The import of a declaration without parentheses can be written again. -/
theorem writable_of_single (reads : ReadsAs text lexemes items) (member : decl ∈ declsOf items)
    (single : decl.close = none) (readable : ∀ spec ∈ decl.specs, IsReadable spec.path) :
    ∀ needed ∈ decl.specs.map ImportSpec.value, IsWritable needed := by
  intro needed held
  obtain ⟨spec, inside, rfl⟩ := List.mem_map.mp held
  refine ⟨readable spec inside, fun name named => ?_⟩
  have whole := congrArg Prod.fst reads.reads
  simp only at whole
  rw [← whole] at member
  obtain ⟨front, read, after, made, decls⟩ := declRead_of_mem reads.closed member
  cases decls with
  | group => cases single
  | @single key read spec' keyword one =>
    obtain rfl := List.mem_singleton.mp inside
    cases one with
    | plain => cases named
    | @named bound path binds literal =>
      cases named
      rcases binds with word | dot
      · have place : placeTokens {} lexemes = (front ++ [key]) ++ bound :: (path :: after) := by
          simp [made]
        exact .inr (isName_of_token reads.lexes place word)
      · simp only [Token.isMark, Bool.and_eq_true, beq_iff_eq] at dot
        exact .inl dot.2

/-- A declaration without parentheses is written again, with the new imports. -/
theorem importEdits_of_single (lacks : missingImports (importsFile text) imports ≠ [])
    (ungrouped : lastGroup? (importsFile text) = none)
    (last : (importsFile text).importDecls.getLast? = some decl) :
    importEdits setting text imports = .ok [⟨decl.start, decl.stop, trimBreaks
      (importBlock setting (decl.specs.map ImportSpec.value ++
        missingImports (importsFile text) imports))⟩] := by
  rw [importEdits_eq, mergeImports]
  split
  · exact absurd ‹_› lacks
  · rw [ungrouped]
    dsimp only
    rw [last]
    rfl

/-- A declaration without parentheses makes room for more imports. -/
theorem mergesTo_of_single (reads : ReadsAs text lexemes items)
    (sound : ∀ needed ∈ imports, needed.IsSound)
    (lacks : missingImports (importsFile text) imports ≠ [])
    (ungrouped : lastGroup? (importsFile text) = none)
    (last : (importsFile text).importDecls.getLast? = some decl)
    (readable : ∀ spec ∈ decl.specs, IsReadable spec.path) :
    ∃ merged, MergesTo setting text imports merged := by
  have member := List.mem_of_getLast? last
  have single := lastGroup?_eq_none ungrouped decl member
  obtain ⟨kept, rest, split, start⟩ := (isCut_of_decl member).1
  obtain ⟨kept', tail, split', stop⟩ := (isCut_of_decl member).2.1
  have ordered := (isCut_of_decl member).2.2.1
  rw [← start, ← stop] at ordered
  obtain ⟨cut, rfl, rfl⟩ := append_eq_append_of_le (split.symm.trans split') ordered
  have inside := importDecls_eq reads ▸ member
  -- The import that was there is written again, with the new ones behind it.
  have all : decl.specs.map ImportSpec.value ++ missingImports (importsFile text) imports ≠ [] := by
    simp [lacks]
  have writable : ∀ needed ∈ decl.specs.map ImportSpec.value ++
      missingImports (importsFile text) imports, IsWritable needed := by
    intro needed either
    rcases List.mem_append.mp either with held | new
    · exact writable_of_single reads inside single readable needed held
    · exact missing_writable sound needed new
  have written := isDeclText_declText setting all writable
  have perm := flatten_groupedImports_perm setting
    (decl.specs.map ImportSpec.value ++ missingImports (importsFile text) imports)
  obtain ⟨lexemes', items', before, later, reads', others, old, gained⟩ :=
    reads.replaceSingle inside single split start (by rw [← byteLength_append, stop]) written
  have applied := applyEdits_replacement kept cut tail (trimBreaks (importBlock setting
    (decl.specs.map ImportSpec.value ++ missingImports (importsFile text) imports)))
  rw [← split, String.ofList_toList, ← byteLength_append, start, stop,
    trimBreaks_importBlock setting all] at applied
  refine ⟨_, mergesTo_of_gains (importEdits_of_single lacks ungrouped last) applied reads reads'
    ⟨?_, others⟩ (.refl _)⟩
  rw [old, gained, List.perm_iff_count]
  intro value
  have same := perm.count_eq value
  simp only [List.count_append] at same ⊢
  omega

/-- Without any declaration, one is put behind the package clause. -/
theorem importEdits_of_package {clause : PackageClause}
    (lacks : missingImports (importsFile text) imports ≠ [])
    (undeclared : (importsFile text).importDecls.getLast? = none)
    (found : (importsFile text).package? = some clause) :
    importEdits setting text imports = .ok [.insertion clause.stop ("\n" ++
      trimEndBreaks (importBlock setting (missingImports (importsFile text) imports)))] := by
  have ungrouped : lastGroup? (importsFile text) = none := by
    rw [lastGroup?, List.getLast?_eq_none_iff.mp undeclared]
    rfl
  rw [importEdits_eq, mergeImports]
  split
  · exact absurd ‹_› lacks
  · rw [ungrouped]
    dsimp only
    rw [undeclared]
    dsimp only
    rw [found]

/-- Behind the package clause there is room for a declaration. -/
theorem mergesTo_of_package {clause : PackageClause} (reads : ReadsAs text lexemes items)
    (sound : ∀ needed ∈ imports, needed.IsSound)
    (lacks : missingImports (importsFile text) imports ≠ [])
    (undeclared : (importsFile text).importDecls.getLast? = none)
    (found : (importsFile text).package? = some clause) :
    ∃ merged, MergesTo setting text imports merged := by
  obtain ⟨kept, tail, split, here⟩ := isCut_of_package found
  have written := isDeclText_declText setting lacks (missing_writable sound)
  obtain ⟨lexemes', items', reads', gains⟩ := reads.addDecl found split here written
  have applied := applyEdits_insertion split
    ("\n" ++ trimEndBreaks (importBlock setting (missingImports (importsFile text) imports)))
  have inserted : ("\n" ++ trimEndBreaks (importBlock setting
      (missingImports (importsFile text) imports))).toList =
      '\n' :: '\n' :: declText setting (missingImports (importsFile text) imports) := by
    rw [String.toList_append, trimEndBreaks_importBlock setting lacks]
    rfl
  rw [inserted, here] at applied
  exact ⟨_, mergesTo_of_gains (importEdits_of_package lacks undeclared found) applied reads reads'
    gains (flatten_groupedImports_perm setting _)⟩

/-- A file that is read and has room for some imports gains those it lacks. -/
theorem exists_mergesTo (reads : ReadsAs text lexemes items)
    (clause : (importsFile text).package?.isSome = true)
    (sound : ∀ needed ∈ imports, needed.IsSound)
    (room : ∀ needed ∈ imports, needed ∉ importsOf text → HasRoomFor setting text needed) :
    ∃ merged, MergesTo setting text imports merged := by
  by_cases lacks : missingImports (importsFile text) imports = []
  · exact ⟨text, mergesTo_of_none reads lacks⟩
  have room : ∀ needed ∈ missingImports (importsFile text) imports,
      HasRoomFor setting text needed := by
    intro needed missing
    obtain ⟨wanted, absent⟩ := mem_missing.mp missing
    exact room needed wanted absent
  cases found : lastGroup? (importsFile text) with
  | some group =>
    obtain ⟨decl, close⟩ := group
    cases inline : isInline (placesOf setting text decl) close with
    | true => exact mergesTo_of_inline reads sound lacks found inline
    | false =>
      refine mergesTo_of_lines reads sound lacks found inline fun needed missing => ?_
      have place := room needed missing
      rw [HasRoomFor, found] at place
      have opening := place.resolve_left (by simp [inline])
      rwa [reads.lexemes_eq] at opening
  | none =>
    cases last : (importsFile text).importDecls.getLast? with
    | some decl =>
      obtain ⟨needed, missing⟩ := List.exists_mem_of_ne_nil _ lacks
      have place := room needed missing
      rw [HasRoomFor, found] at place
      exact mergesTo_of_single reads sound lacks found last (place decl last)
    | none =>
      obtain ⟨clause, named⟩ := Option.isSome_iff_exists.mp clause
      exact mergesTo_of_package reads sound lacks last named

end Routes

/--
Imports can be merged into a file that has room for them.

The edits can be applied, and the file is read again with exactly the missing imports more.
A second merge finds nothing to do.
-/
theorem mergesTo_of_room (unbroken : (importsFile text).broken = false)
    (clause : (importsFile text).package?.isSome = true)
    (sound : ∀ needed ∈ imports, needed.IsSound)
    (room : ∀ needed ∈ imports, needed ∉ importsOf text → HasRoomFor setting text needed) :
    ∃ merged, MergesTo setting text imports merged := by
  obtain ⟨lexemes, items, reads⟩ := readsAs_of_unbroken unbroken
  exact exists_mergesTo reads clause sound room

/-- A file with a declaration that has lines of its own for its imports. -/
def groupFile : String :=
  "package p\n\nimport (\n\t\"b\"\n)\n"

/-- Behind the opening parenthesis and its line break a line can be put. -/
theorem opening_groupFile : Opening (Go.lexemes groupFile.toList).1 20 := by
  have offset : byteLength (lexemeChars ((Go.lexemes groupFile.toList).1.take 9)) = 20 := by
    decide +kernel
  have tokens : tokensFrom {} ((Go.lexemes groupFile.toList).1.take 9) =
      [⟨.keyword, "package", 0, 0, "", []⟩, ⟨.word, "p", 8, 0, " ", []⟩,
        ⟨.terminator, "\n", 9, 0, "", []⟩] ++
      ⟨.keyword, "import", 11, 2, "\n", []⟩ :: ⟨.mark, "(", 18, 2, " ", []⟩ :: [] := by
    decide +kernel
  generalize Go.lexemes groupFile.toList = read at offset tokens ⊢
  exact ⟨read.1.take 9, read.1.drop 9, (List.take_append_drop 9 _).symm, offset,
    _, _, _, [], [], tokens, by decide, by decide, .nil⟩
theorem mergesTo_groupFile : ∃ merged, MergesTo none groupFile [⟨"a", none⟩] merged := by
  have sound : (⟨"a", none⟩ : Import).IsSound := ⟨by unfold IsPlain; decide, by simp⟩
  have unbroken : (importsFile groupFile).broken = false := by decide +kernel
  have clause : (importsFile groupFile).package?.isSome = true := by decide +kernel
  have place : (lastGroup? (importsFile groupFile)).map (fun group =>
      (placeImport none (placesOf none groupFile group.1) group.2 ⟨"a", none⟩).offset) =
        some 20 := by decide +kernel
  have opening := opening_groupFile
  generalize groupFile = text at unbroken clause place opening ⊢
  have room : HasRoomFor none text ⟨"a", none⟩ := by
    rw [HasRoomFor]
    split
    · rename_i found
      rw [found] at place
      have offset := Option.some.inj place
      dsimp only at offset
      exact .inr (offset ▸ opening)
    · rename_i found
      rw [found] at place
      cases place
  exact mergesTo_of_room unbroken clause (by simpa using sound) (by simpa using fun _ => room)

/-- A file whose declaration begins an import behind its opening parenthesis. -/
def sharedLine : String :=
  "package p\n\nimport (\"a\"; \"c\"\n)\n"

/-- A line put in front of an import may come to stand in front of the whole declaration. -/
theorem broken_of_sharedLine : (importsFile sharedLine).broken = false ∧
    (importsFile sharedLine).package?.isSome = true ∧
    (∀ needed ∈ [(⟨"b", some "x"⟩ : Import)], needed.IsSound) ∧
    ∃ edits merged, importEdits none sharedLine [⟨"b", some "x"⟩] = .ok edits ∧
      applyEdits sharedLine edits = .ok merged ∧ (importsFile merged).broken = true := by
  have sound : (⟨"b", some "x"⟩ : Import).IsSound := by
    refine ⟨by unfold IsPlain; decide, ?_⟩
    rintro name ⟨⟩
    decide +kernel
  have made : importEdits none sharedLine [⟨"b", some "x"⟩] =
      .ok [.insertion 11 "\tx \"b\"\n"] := by
    have same : (importEdits none sharedLine [⟨"b", some "x"⟩]).toOption =
        some [.insertion 11 "\tx \"b\"\n"] := by decide +kernel
    cases edits : importEdits none sharedLine [⟨"b", some "x"⟩] with
    | error error =>
      rw [edits] at same
      cases same
    | ok edits' =>
      rw [edits] at same
      exact congrArg Except.ok (Option.some.inj same)
  have split : sharedLine.toList = "package p\n\n".toList ++ "import (\"a\"; \"c\"\n)\n".toList := by
    decide
  have applied := applyEdits_insertion split "\tx \"b\"\n"
  exact ⟨by decide +kernel, by decide +kernel, by simpa using sound, _, _, made, applied,
    by decide +kernel⟩

end Scaffold
