import Mathlib.Data.Prod.Lex
import Mathlib.Data.String.Basic
import Mathlib.Order.WithBot
import Scaffold.Proofs.Imports.Places
import Scaffold.Proofs.Imports.Routes
import Scaffold.Proofs.Order

/-! Imports merged into a file: the ones that it lacks, what becomes of the file, and which files
have room for them. -/

namespace Scaffold

open Go

/-- What imports are ordered by: the path, and then the name, if there is one. -/
def Import.key (needed : Import) : Lex (String × WithBot String) :=
  toLex (needed.path, needed.name)

theorem Import.mayPrecede_iff (first second : Import) :
    first.mayPrecede second = true ↔ first.key ≤ second.key := by
  rw [Import.mayPrecede, Import.key, Import.key, Prod.Lex.toLex_le_toLex]
  by_cases same : first.path = second.path
  · rw [if_pos (by simpa using same)]
    simp only [same, lt_self_iff_false, false_or, true_and]
    cases first.name with
    | none => exact iff_of_true rfl bot_le
    | some name =>
      cases second.name with
      | none => exact iff_of_false Bool.false_ne_true (WithBot.not_coe_le_bot name)
      | some other => exact decide_eq_true_iff.trans WithBot.coe_le_coe.symm
  · rw [if_neg (by simpa using same)]
    simp [same]

theorem Import.isOrder_mayPrecede : IsOrder Import.mayPrecede where
  total first second := by
    rw [mayPrecede_iff, mayPrecede_iff]
    exact le_total _ _
  trans before behind := by
    rw [mayPrecede_iff] at *
    exact le_trans before behind

/-- Only an import itself may stand both before and behind it. -/
theorem Import.mayPrecede_antisymm (first second : Import)
    (before : first.mayPrecede second = true) (behind : second.mayPrecede first = true) :
    first = second := by
  rw [mayPrecede_iff] at before behind
  have keys := toLex.injective (le_antisymm before behind)
  cases first
  cases second
  cases keys
  rfl

/-- What new lines are ordered by: the offset, then the placement, then the group. -/
def PlacedLine.key (line : PlacedLine) : Lex (Nat × Lex (Nat × Nat)) :=
  toLex (line.offset, toLex (line.placement.rank, line.group.rank))

theorem Placement.rank_inj {first second : Placement} (same : first.rank = second.rank) :
    first = second := by
  cases first <;> cases second <;> first | rfl | cases same

theorem PlacedLine.mayPrecede_iff (first second : PlacedLine) :
    first.mayPrecede second = true ↔ first.key ≤ second.key := by
  rw [mayPrecede, key, key, Prod.Lex.toLex_le_toLex, Prod.Lex.toLex_le_toLex]
  by_cases offset : first.offset = second.offset
  · rw [if_pos (by simpa using offset)]
    by_cases placement : first.placement = second.placement
    · simp [offset, placement]
    · have ranks : first.placement.rank ≠ second.placement.rank :=
        fun same => placement (Placement.rank_inj same)
      simp [offset, placement, ranks]
  · rw [if_neg (by simpa using offset)]
    simp [offset]

theorem PlacedLine.isOrder_mayPrecede : IsOrder PlacedLine.mayPrecede where
  total first second := by
    rw [mayPrecede_iff, mayPrecede_iff]
    exact le_total _ _
  trans before behind := by
    rw [mayPrecede_iff] at *
    exact le_trans before behind

/-- A new line stands in front of the ones that it may precede. -/
theorem PlacedLine.offset_le {first second : PlacedLine}
    (before : first.mayPrecede second = true) : first.offset ≤ second.offset := by
  rw [mayPrecede_iff, key, key, Prod.Lex.toLex_le_toLex] at before
  rcases before with less | ⟨same, -⟩
  · exact Nat.le_of_lt less
  · exact Nat.le_of_eq same

section Missing

variable {file : Go.SourceFile} {imports : List Import}

/-- A file lacks the imports it has not got yet. -/
theorem mem_missingImports {needed : Import} : needed ∈ missingImports file imports ↔
    needed ∈ imports ∧ ∀ spec ∈ file.imports, ¬(spec.path = needed.path ∧ spec.name = needed.name) := by
  rw [missingImports, mem_dropRepeats, Import.sorted, mem_sortOrdered, List.mem_filter]
  simp

theorem nodup_missingImports (file : Go.SourceFile) (imports : List Import) :
    (missingImports file imports).Nodup :=
  nodup_dropRepeats Import.mayPrecede_antisymm
    (sortOrdered_pairwise Import.isOrder_mayPrecede _)

/-- Imports that a file lacks are in order. -/
theorem missingImports_pairwise (file : Go.SourceFile) (imports : List Import) :
    (missingImports file imports).Pairwise fun first second => first.mayPrecede second = true :=
  (sortOrdered_pairwise Import.isOrder_mayPrecede _).sublist (dropRepeats_sublist _)

end Missing

/-- The text that is put in front of a closing parenthesis. -/
theorem inlineText_eq (imports : List Import) :
    (String.join (imports.map fun needed => "\n\t" ++ needed.spec) ++ "\n").toList =
      '\n' :: (linesOf imports).toList := by
  induction imports with
  | nil => rfl
  | cons needed imports ih =>
    have lead : "\n\t".toList = ['\n', '\t'] := by decide
    have line : (specLine needed).toList = '\t' :: (needed.spec.toList ++ ['\n']) := by
      simp [specLine]
    rw [linesOf_cons, String.toList_append (s := specLine needed), line]
    rw [List.map_cons, String.join_cons, String.append_assoc, String.toList_append, ih,
      String.toList_append, lead]
    simp

/-- An import ends with the quote behind its path. -/
theorem Import.spec_closes (needed : Import) : ∃ front, needed.spec.toList = front ++ ['"'] := by
  rw [Import.spec]
  cases needed.name with
  | none => exact ⟨'"' :: needed.path.toList, by simp⟩
  | some name => exact ⟨name.toList ++ (' ' :: '"' :: needed.path.toList), by simp⟩

/-- A declaration neither begins nor ends with a line break. -/
theorem declText_ends (setting : Option String) {imports : List Import} (some : imports ≠ []) :
    (∃ rest, declText setting imports = 'i' :: rest) ∧
      ∃ front last, declText setting imports = front ++ [last] ∧ last ≠ '\n' := by
  rcases imports with _ | ⟨single, _ | ⟨second, others⟩⟩
  · exact absurd rfl some
  · have lead : "import ".toList = 'i' :: "mport ".toList := by decide
    have whole := declText_single setting single
    refine ⟨⟨"mport ".toList ++ single.spec.toList, by rw [whole, lead]; rfl⟩, ?_⟩
    obtain ⟨front, last⟩ := single.spec_closes
    have plain : '"' ≠ '\n' := by decide
    refine ⟨"import ".toList ++ front, '"', ?_, plain⟩
    rw [whole, last, List.append_assoc]
  · have lead : "import (\n".toList = 'i' :: "mport (\n".toList := by decide
    have whole := declText_several setting single second others
    refine ⟨⟨"mport (\n".toList ++ (groupedLines setting (single :: second :: others)).toList ++
      [')'], ?_⟩, _, ')', whole, by decide⟩
    rw [whole, lead]
    rfl

theorem trimEndBreaks_importBlock (setting : Option String) {imports : List Import}
    (some : imports ≠ []) :
    (trimEndBreaks (importBlock setting imports)).toList = '\n' :: declText setting imports := by
  obtain ⟨-, front, last, whole, plain⟩ := declText_ends setting some
  rw [trimEndBreaks, String.toList_ofList, importBlock_eq setting some, whole, dropTrailing]
  simp [plain]

theorem trimBreaks_importBlock (setting : Option String) {imports : List Import}
    (some : imports ≠ []) :
    (trimBreaks (importBlock setting imports)).toList = declText setting imports := by
  obtain ⟨⟨rest, start⟩, front, last, whole, plain⟩ := declText_ends setting some
  have behind : ('\n' :: declText setting imports ++ ['\n']).dropWhile (· == '\n') =
      declText setting imports ++ ['\n'] := by
    rw [start]
    rfl
  rw [trimBreaks, String.toList_ofList, importBlock_eq setting some, behind, whole, dropTrailing]
  simp [plain]

section Runs

variable {setting : Option String} {specs : List PlacedSpec} {close : Nat}

theorem line_placeImport (setting : Option String) (specs : List PlacedSpec) (close : Nat)
    (needed : Import) : (placeImport setting specs close needed).line = specLine needed := by
  rw [placeImport]
  split
  · rfl
  · split <;> rfl

/-- The lines of a group are those of its imports, perhaps with an empty one on a side. -/
theorem groupText_eq (setting : Option String) (specs : List PlacedSpec) (close : Nat)
    (placement : Placement) (group : List Import) : ∃ lead trail,
      (∀ c ∈ lead ++ trail, c = '\n') ∧ (lead ++ trail).length ≤ 1 ∧
      (groupText placement (group.map (placeImport setting specs close))).toList =
        lead ++ (linesOf group).toList ++ trail := by
  have lines : String.join ((group.map (placeImport setting specs close)).map PlacedLine.line) =
      linesOf group := by
    rw [List.map_map, linesOf]
    congr 1
    exact List.map_congr_left fun needed _ => line_placeImport setting specs close needed
  cases placement with
  | within => exact ⟨[], [], by simp, by simp, by simp only [groupText, lines]; simp⟩
  | groupBefore => exact ⟨[], ['\n'], by simp, by simp, by simp only [groupText, lines]; simp⟩
  | groupBehind => exact ⟨['\n'], [], by simp, by simp, by simp only [groupText, lines]; simp⟩

/-- The text of a run is read back as the imports of the run. -/
theorem specText_runText {run : List Import} (writable : ∀ needed ∈ run, IsWritable needed)
    (placement : Placement) :
    SpecText (runText placement (run.map (placeImport setting specs close))).toList run := by
  have breaks : ∀ {text : List Char}, (∀ c ∈ text, c = '\n') → SpecText text [] := by
    intro text broken
    induction text with
    | nil => exact .nil
    | cons c text ih =>
      obtain rfl := broken c (by simp)
      exact .space (ih fun d member => broken d (by simp [member]))
  rw [runText, gatherRuns_map]
  obtain ⟨groups, gathered, rfl⟩ : ∃ groups, gatherRuns _ run = groups ∧ groups.flatten = run :=
    ⟨_, rfl, flatten_gatherRuns (fun one other => (placeImport setting specs close one).group ==
      (placeImport setting specs close other).group) run⟩
  rw [gathered]
  clear gathered
  induction groups with
  | nil => exact .nil
  | cons group groups ih =>
    rw [List.map_cons, List.map_cons, String.join_cons, String.toList_append, List.flatten_cons]
    refine SpecText.append ?_ (ih fun needed member => writable needed (by simp_all))
    obtain ⟨lead, trail, broken, -, whole⟩ := groupText_eq setting specs close placement group
    have lines := specText_linesOf fun needed (member : needed ∈ group) =>
      writable needed (by simp [member])
    have front := breaks fun c (member : c ∈ lead) => broken c (by simp [member])
    have back := breaks fun c (member : c ∈ trail) => broken c (by simp [member])
    rw [whole]
    simpa using (front.append lines).append back

/-- Places follow one another in the order of their offsets. -/
theorem placedOrder_pairwise (setting : Option String) (specs : List PlacedSpec) (close : Nat)
    (imports : List Import) : (placedOrder setting specs close imports).Pairwise fun one other =>
      (placeImport setting specs close one).offset ≤
        (placeImport setting specs close other).offset := by
  have order : IsOrder fun one other => (placeImport setting specs close one).mayPrecede
      (placeImport setting specs close other) :=
    ⟨fun _ _ => PlacedLine.isOrder_mayPrecede.total _ _, PlacedLine.isOrder_mayPrecede.trans⟩
  exact (sortOrdered_pairwise order imports).imp PlacedLine.offset_le

/-- The edits of a declaration are made in the order of their offsets. -/
theorem blockEdits_pairwise (lines : isInline specs close = false) (imports : List Import) :
    (blockEdits setting specs close imports).Pairwise
      fun first second => first.start ≤ second.start := by
  have flat : (placedRuns setting specs close imports).flatten =
      placedOrder setting specs close imports := flatten_gatherRuns _ _
  obtain ⟨-, apart⟩ := List.pairwise_flatten.mp
    (flat ▸ placedOrder_pairwise setting specs close imports)
  rw [blockEdits_of_lines lines]
  refine List.Pairwise.filterMap _ (fun run run' before edit made edit' made' => ?_) apart
  obtain ⟨first, head, rfl⟩ := Option.map_eq_some_iff.mp made
  obtain ⟨first', head', rfl⟩ := Option.map_eq_some_iff.mp made'
  exact before first (List.mem_of_head? head) first' (List.mem_of_head? head')

/-- The edits of a declaration put lines of imports at the places of these imports, in order. -/
theorem blockEdits_lines {text : List Char} {lexemes : List Lexeme} {imports : List Import}
    (lines : isInline specs close = false) (writable : ∀ needed ∈ imports, IsWritable needed)
    (openings : ∀ needed ∈ imports, Opening lexemes (placeImport setting specs close needed).offset ∧
      BehindBreak text (placeImport setting specs close needed).offset) :
    List.Forall₂ (IsLineEdit text lexemes) (blockEdits setting specs close imports)
        (placedRuns setting specs close imports) ∧
      (blockEdits setting specs close imports).Pairwise
        (fun first second => first.start ≤ second.start) ∧
      (placedRuns setting specs close imports).flatten.Perm imports := by
  have flat : (placedRuns setting specs close imports).flatten =
      placedOrder setting specs close imports := flatten_gatherRuns _ _
  have perm : (placedOrder setting specs close imports).Perm imports := sortOrdered_perm _ _
  have filled : ∀ run ∈ placedRuns setting specs close imports, run ≠ [] :=
    fun run member => ne_nil_of_mem_gatherRuns member
  refine ⟨?_, blockEdits_pairwise lines imports, flat ▸ perm⟩
  rw [blockEdits_of_lines lines]
  rw [← flat] at perm
  generalize placedRuns setting specs close imports = runs at filled perm
  have inside : ∀ run ∈ runs, ∀ needed ∈ run, needed ∈ imports := fun run member needed within =>
    perm.mem_iff.mp (List.mem_flatten.mpr ⟨run, member, within⟩)
  clear perm
  induction runs with
  | nil => exact .nil
  | cons run runs ih =>
    obtain ⟨first, others, rfl⟩ := List.exists_cons_of_ne_nil (filled run (by simp))
    have held : ∀ needed ∈ first :: others, needed ∈ imports := inside _ (by simp)
    have place := openings first (held first (by simp))
    refine .cons ⟨_, _, rfl, ?_, place⟩ (ih (fun run member => filled run (by simp [member]))
      fun run member => inside run (by simp [member]))
    exact specText_runText (fun needed member => writable needed (held needed member)) _

end Runs

/-- An import that can be asked for: a plain path, under a name that may be chosen freely. -/
def Import.IsSound (needed : Import) : Prop :=
  IsPlain needed.path ∧ ∀ name, needed.name = some name → isName name.toList = true

theorem Import.IsSound.writable {needed : Import} (sound : needed.IsSound) : IsWritable needed :=
  ⟨sound.1.readable, fun name named => .inr (sound.2 name named)⟩

/-- The file that imports are merged into. -/
def importsFile (text : String) : SourceFile :=
  .ofText ⟨"imports.go"⟩ text

/-- The imports of a source text, by their paths and names. -/
def importsOf (text : String) : List Import :=
  (importsFile text).imports.map ImportSpec.value

/-- The texts of all items of a source text but the import declarations. -/
def otherItems (text : String) : List String :=
  otherTexts (allItems (tokens text.toList).1).1

/-- A merge of imports makes a text of another, as it should. -/
structure MergesTo (setting : Option String) (text : String) (imports : List Import)
    (merged : String) : Prop where
  applies : ∃ edits, importEdits setting text imports = .ok edits ∧
    applyEdits text edits = .ok merged
  unbroken : (importsFile merged).broken = false
  gained : ∃ new, new.Nodup ∧ (∀ needed, needed ∈ new ↔ needed ∈ imports ∧ needed ∉ importsOf text) ∧
    (importsOf merged).Perm (importsOf text ++ new)
  others : otherItems merged = otherItems text
  settled : importEdits setting merged imports = .ok []

section Merge

variable {setting : Option String} {text merged : String} {imports : List Import}

theorem mem_missing {needed : Import} : needed ∈ missingImports (importsFile text) imports ↔
    needed ∈ imports ∧ needed ∉ importsOf text := by
  rw [mem_missingImports, importsOf]
  refine and_congr_right fun _ => ?_
  simp only [List.mem_map, not_exists, not_and]
  refine forall₂_congr fun spec _ => ?_
  constructor
  · rintro different rfl
    exact different rfl rfl
  · rintro different path name
    exact different (by cases needed; cases path; cases name; rfl)

/-- What nothing is missing from is left as it is. -/
theorem importEdits_of_present (present : ∀ needed ∈ imports, needed ∈ importsOf text) :
    importEdits setting text imports = .ok [] := by
  have none : missingImports (importsFile text) imports = [] := by
    rw [List.eq_nil_iff_forall_not_mem]
    intro needed member
    obtain ⟨wanted, absent⟩ := mem_missing.mp member
    exact absent (present needed wanted)
  rw [importEdits, mergeImports]
  rw [importsFile] at none
  rw [none]

theorem importsOf_eq {lexemes : List Lexeme} {items : List (Item × List Token)}
    (reads : ReadsAs text lexemes items) : importsOf text = valuesOf items := by
  rw [importsOf, importsFile, reads.imports, valuesOf]

theorem otherItems_eq {lexemes : List Lexeme} {items : List (Item × List Token)}
    (reads : ReadsAs text lexemes items) : otherItems text = otherTexts items := by
  rw [otherItems, tokens, reads.lexemes_eq]
  simp only [reads.reads]

/-- A text that gains the missing imports is what the merge should make. -/
theorem mergesTo_of_gains {lexemes lexemes' : List Lexeme} {items items' : List (Item × List Token)}
    {new : List Import} {edits : List Edit} (made : importEdits setting text imports = .ok edits)
    (applied : applyEdits text edits = .ok merged) (reads : ReadsAs text lexemes items)
    (reads' : ReadsAs merged lexemes' items') (gains : Gains items items' new)
    (perm : new.Perm (missingImports (importsFile text) imports)) :
    MergesTo setting text imports merged := by
  have values := gains.values.trans (List.Perm.append_left _ perm)
  rw [← importsOf_eq reads, ← importsOf_eq reads'] at values
  refine ⟨⟨edits, made, applied⟩, reads'.unbroken _, ⟨_, nodup_missingImports _ imports,
    fun needed => mem_missing, values⟩, ?_, importEdits_of_present fun needed wanted => ?_⟩
  · rw [otherItems_eq reads, otherItems_eq reads', gains.others]
  · rw [values.mem_iff, List.mem_append, mem_missing]
    exact (Classical.em _).imp_right fun absent => ⟨wanted, absent⟩

end Merge

end Scaffold
