import Scaffold.Proofs.Imports.Room
import Scaffold.Proofs.Imports.Runs

/-! What a merge adds between parentheses: one line for each missing import, and line breaks. -/

namespace Scaffold

open Go

section Keys

variable {α κ ρ : Type} [DecidableEq κ] [LinearOrder ρ] {key : α → κ} {rank : κ → ρ}
  {same : α → α → Bool}

/-- Runs of a list in the order of its keys have one key each, and a greater one than before. -/
theorem exists_keys_gatherRuns (keyed : ∀ x y, same x y = decide (key x = key y))
    (distinct : Function.Injective rank) {xs : List α}
    (ordered : xs.Pairwise fun x y => rank (key x) ≤ rank (key y)) :
    ∃ keys : List κ, keys.Pairwise (fun one other => rank one < rank other) ∧
      List.Forall₂ (fun run k => run ≠ [] ∧ ∀ x ∈ run, key x = k) (gatherRuns same xs) keys := by
  -- A new first element joins the first run or opens one of its own in front of it.
  induction xs with
  | nil => exact ⟨[], .nil, .nil⟩
  | cons x xs ih =>
    obtain ⟨least, ordered⟩ := List.pairwise_cons.mp ordered
    obtain ⟨keys, ascending, parts⟩ := ih ordered
    have flat := flatten_gatherRuns same xs
    rw [gatherRuns]
    cases gathered : gatherRuns same xs with
    | nil =>
      -- Nothing follows, so the element is a run by itself.
      rw [gathered] at parts
      cases parts
      exact ⟨[key x], List.pairwise_singleton _ _, .cons ⟨by simp, by simp⟩ .nil⟩
    | cons run runs =>
      rw [gathered] at parts flat
      cases parts with
      | @cons _ k _ keys one others =>
        obtain ⟨filled, alike⟩ := one
        obtain ⟨y, run, rfl⟩ := List.exists_cons_of_ne_nil filled
        have next : key y = k := alike y (by simp)
        have after : y ∈ xs := by
          rw [← flat]
          simp
        have below : rank (key x) ≤ rank k := next ▸ least y after
        dsimp only
        by_cases joins : key x = k
        · -- The run keeps its key, and so do all runs behind it.
          rw [if_pos (by simp [keyed, joins, next])]
          refine ⟨k :: keys, ascending, .cons ⟨by simp, ?_⟩ others⟩
          intro z member
          rcases List.mem_cons.mp member with rfl | member
          · exact joins
          · exact alike z member
        · -- The key is less than that of the first run, and therefore less than all others.
          rw [if_neg (by simp [keyed, joins, next])]
          have less : rank (key x) < rank k :=
            lt_of_le_of_ne below fun equal => joins (distinct equal)
          refine ⟨key x :: k :: keys, List.pairwise_cons.mpr ⟨?_, ascending⟩,
            .cons ⟨by simp, by simp⟩ (.cons ⟨filled, alike⟩ others)⟩
          intro other member
          rcases List.mem_cons.mp member with rfl | later
          · exact less
          · exact less.trans ((List.pairwise_cons.mp ascending).1 other later)

end Keys

/-- Whether a text is the lines of some imports, each once in any order, and else line breaks. -/
def HoldsLines (text : List Char) (imports : List Import) : Prop :=
  ∃ lines : List (Option Import), text = lines.flatMap lineText ∧ (lines.filterMap id).Perm imports

namespace HoldsLines

variable {text first second : List Char} {imports others : List Import}

theorem nil : HoldsLines [] [] :=
  ⟨[], rfl, .nil⟩

theorem perm (holds : HoldsLines text imports) (perm : imports.Perm others) :
    HoldsLines text others := by
  obtain ⟨lines, whole, held⟩ := holds
  exact ⟨lines, whole, held.trans perm⟩

theorem append (front : HoldsLines first imports) (back : HoldsLines second others) :
    HoldsLines (first ++ second) (imports ++ others) := by
  obtain ⟨lines, rfl, held⟩ := front
  obtain ⟨more, rfl, held'⟩ := back
  refine ⟨lines ++ more, (List.flatMap_append).symm, ?_⟩
  rw [List.filterMap_append]
  exact held.append held'

theorem linesOf (imports : List Import) : HoldsLines (linesOf imports).toList imports := by
  refine ⟨imports.map some, (flatMap_lineText_map imports).symm, ?_⟩
  rw [List.filterMap_map]
  simp

/-- An empty line adds no import. -/
theorem blank : HoldsLines ['\n'] [] :=
  ⟨[none], rfl, .nil⟩

/-- A group holds its lines, on whichever side it is set off. -/
theorem setOff (placement : Placement) (group : List Import) :
    HoldsLines (setOff placement group) group := by
  cases placement with
  | within => exact .linesOf group
  | groupBefore =>
    have behind := (HoldsLines.linesOf group).append .blank
    rwa [List.append_nil] at behind
  | groupBehind => exact HoldsLines.blank.append (.linesOf group)

/-- Texts one after the other hold what each of them holds. -/
theorem flatMap {α : Type} {texts : α → List Char} {held : α → List Import} {xs : List α}
    (all : ∀ x ∈ xs, HoldsLines (texts x) (held x)) :
    HoldsLines (xs.flatMap texts) (xs.flatMap held) := by
  induction xs with
  | nil => exact .nil
  | cons x xs ih =>
    rw [List.flatMap_cons, List.flatMap_cons]
    exact (all x (by simp)).append (ih fun y member => all y (by simp [member]))

end HoldsLines

section Placed

variable {setting : Option String} {specs : List PlacedSpec} {close : Nat}

/-- The text of a run holds the lines of its imports. -/
theorem holdsLines_runText (placement : Placement) (run : List Import) :
    HoldsLines (runText placement (run.map (placeImport setting specs close))).toList run := by
  rw [runText, gatherRuns_map, List.map_map]
  -- The groups of the run, one after the other, are the run.
  obtain ⟨groups, gathered, flat⟩ : ∃ groups, gatherRuns _ run = groups ∧ groups.flatten = run :=
    ⟨_, rfl, flatten_gatherRuns (fun one other => (placeImport setting specs close one).group ==
      (placeImport setting specs close other).group) run⟩
  rw [gathered, ← flat]
  have text : (String.join (groups.map (groupText placement ∘
      List.map (placeImport setting specs close)))).toList = groups.flatMap (setOff placement) := by
    clear gathered flat
    induction groups with
    | nil => rfl
    | cons group groups ih =>
      rw [List.map_cons, String.join_cons, String.toList_append, ih, List.flatMap_cons,
        Function.comp_apply, groupText_eq_setOff]
  rw [text, List.flatten_eq_flatMap]
  exact .flatMap fun group _ => .setOff placement group

/-- An edit that puts in the lines of the imports that go to a place, of which there are some. -/
structure FillsPlace (setting : Option String) (specs : List PlacedSpec) (close : Nat) (edit : Edit)
    (part : (Nat × Placement) × List Import) : Prop where
  some : part.2 ≠ []
  here : ∀ needed ∈ part.2, placeOf setting specs close needed = part.1
  start : edit.start = part.1.1
  lines : HoldsLines edit.text.toList part.2

/-- Edits that put in some imports, one edit for every place that any of them goes to. -/
def FillPlaces (setting : Option String) (specs : List PlacedSpec) (close : Nat)
    (edits : List Edit) (imports : List Import) : Prop :=
  ∃ parts : List ((Nat × Placement) × List Import), (parts.map Prod.fst).Nodup ∧
    (parts.flatMap Prod.snd).Perm imports ∧
    List.Forall₂ (FillsPlace setting specs close) edits parts

/-- What edits put in, one after the other. -/
def insertedText (edits : List Edit) : List Char :=
  edits.flatMap fun edit => edit.text.toList

theorem FillPlaces.holdsLines {edits : List Edit} {imports : List Import}
    (fill : FillPlaces setting specs close edits imports) :
    HoldsLines (insertedText edits) imports := by
  obtain ⟨parts, -, perm, filled⟩ := fill
  refine HoldsLines.perm ?_ perm
  -- Each edit holds the lines of its own part.
  clear perm
  induction filled with
  | nil => exact .nil
  | cons first _ ih => exact first.lines.append ih

/-- What places are ordered by: the offset, and then the placement. -/
def placeRank (place : Nat × Placement) : Lex (Nat × Nat) :=
  toLex (place.1, place.2.rank)

theorem placeRank_injective : Function.Injective placeRank := by
  intro one other same
  obtain ⟨offset, rank⟩ := Prod.mk.inj (toLex.injective same)
  exact Prod.ext offset (Placement.rank_inj rank)

/-- New imports in the order of their places have their places in order. -/
theorem placedOrder_ascending (setting : Option String) (specs : List PlacedSpec) (close : Nat)
    (imports : List Import) : (placedOrder setting specs close imports).Pairwise fun one other =>
      placeRank (placeOf setting specs close one) ≤ placeRank (placeOf setting specs close other) := by
  have order : IsOrder fun one other => (placeImport setting specs close one).mayPrecede
      (placeImport setting specs close other) :=
    ⟨fun _ _ => PlacedLine.isOrder_mayPrecede.total _ _, PlacedLine.isOrder_mayPrecede.trans⟩
  refine (sortOrdered_pairwise order imports).imp fun {one other} before => ?_
  -- The groups, which come last in the order of lines, are left out.
  rw [PlacedLine.mayPrecede_iff, PlacedLine.key, PlacedLine.key, Prod.Lex.toLex_le_toLex,
    Prod.Lex.toLex_le_toLex] at before
  rw [placeRank, placeRank, Prod.Lex.toLex_le_toLex]
  rcases before with less | ⟨same, less | ⟨equal, -⟩⟩
  · exact .inl less
  · exact .inr ⟨same, Nat.le_of_lt less⟩
  · exact .inr ⟨same, Nat.le_of_eq equal⟩

/-- Among lines, every place that new imports go to gets one edit. -/
theorem fillPlaces_blockEdits (lines : isInline specs close = false) (imports : List Import) :
    FillPlaces setting specs close (blockEdits setting specs close imports) imports := by
  have keyed : ∀ one other : Import, ((placeImport setting specs close one).offset ==
      (placeImport setting specs close other).offset &&
        (placeImport setting specs close one).placement ==
          (placeImport setting specs close other).placement) =
      decide (placeOf setting specs close one = placeOf setting specs close other) := by
    intro one other
    rw [Bool.eq_iff_iff, Bool.and_eq_true, beq_iff_eq, beq_iff_eq, decide_eq_true_iff, placeOf,
      placeOf, Prod.mk.injEq]
  obtain ⟨places, ascending, alike⟩ := exists_keys_gatherRuns keyed placeRank_injective
    (placedOrder_ascending setting specs close imports)
  have flat : (placedRuns setting specs close imports).flatten =
      placedOrder setting specs close imports := flatten_gatherRuns _ _
  have perm : (placedOrder setting specs close imports).Perm imports := sortOrdered_perm _ _
  have distinct : places.Nodup := ascending.imp fun less same => by
    rw [same] at less
    exact lt_irrefl _ less
  rw [blockEdits_of_lines lines]
  rw [← flat] at perm
  change List.Forall₂ _ (placedRuns setting specs close imports) places at alike
  generalize placedRuns setting specs close imports = runs at alike perm
  clear ascending flat
  refine ⟨places.zip runs, ?_, ?_, ?_⟩
  · rwa [List.map_fst_zip alike.length_eq.ge]
  · rwa [List.flatMap_def, List.map_snd_zip alike.length_eq.le]
  · -- The edit of a run is made at the place of its first import.
    clear perm distinct
    induction alike with
    | nil => exact .nil
    | @cons run place runs places one _ ih =>
      obtain ⟨filled, here⟩ := one
      obtain ⟨first, others, rfl⟩ := List.exists_cons_of_ne_nil filled
      obtain rfl := here first (by simp)
      exact .cons ⟨filled, here, rfl, holdsLines_runText _ _⟩ ih

/-- Where lines are too few, the one edit in front of the parenthesis holds all lines. -/
theorem holdsLines_inline (imports : List Import) : HoldsLines
    (String.join (imports.map fun needed => "\n\t" ++ needed.spec) ++ "\n").toList imports := by
  rw [inlineText_eq]
  exact HoldsLines.blank.append (.linesOf imports)

end Placed

section Closing

variable {setting : Option String} {text : String} {imports : List Import} {decl : ImportDecl}
  {close : Nat}

/-- The last import declaration of a text that has parentheses, and where its closing one stands. -/
structure ClosesLast (text : String) (decl : ImportDecl) (close : Nat) : Prop where
  last : ∃ front back, (importsFile text).importDecls = front ++ decl :: back ∧
    ∀ later ∈ back, later.close = none
  closes : decl.close = some close
  parenthesis : ∃ before after, text.toList = before ++ ')' :: after ∧ byteLength before = close

/-- An import begins where one of the tokens between the parentheses does. -/
theorem Go.GroupBody.exists_start {body : List Token} {specs : List ImportSpec}
    (inner : GroupBody body specs) : ∀ spec ∈ specs, ∃ token ∈ body, spec.start = token.start := by
  have one : ∀ {read : List Token} {spec : ImportSpec}, SpecRead read spec →
      ∃ token ∈ read, spec.start = token.start := by
    rintro read spec (⟨-⟩ | ⟨-, -⟩)
    · exact ⟨_, List.mem_singleton_self _, rfl⟩
    · exact ⟨_, List.mem_cons_self, rfl⟩
  have ended : ∀ {tokens : List Token} {specs : List ImportSpec}, EndedSpecs tokens specs →
      ∀ spec ∈ specs, ∃ token ∈ tokens, spec.start = token.start := by
    intro tokens specs all
    induction all with
    | nil => simp
    | cons first _ _ ih =>
      intro spec member
      rcases List.mem_cons.mp member with rfl | later
      · obtain ⟨token, inside, same⟩ := one first
        exact ⟨token, by simp [inside], same⟩
      · obtain ⟨token, inside, same⟩ := ih spec later
        exact ⟨token, by simp [inside], same⟩
  cases inner with
  | ended all => exact ended all
  | unended front last =>
    intro spec member
    rcases List.mem_append.mp member with before | here
    · obtain ⟨token, inside, same⟩ := ended front spec before
      exact ⟨token, by simp [inside], same⟩
    · obtain rfl := List.mem_singleton.mp here
      obtain ⟨token, inside, same⟩ := one last
      exact ⟨token, by simp [inside], same⟩

/-- A declaration closes at a parenthesis, and all its imports begin in front of that. -/
theorem parenthesis_of_close (unbroken : (importsFile text).broken = false)
    (member : decl ∈ (importsFile text).importDecls) (closes : decl.close = some close) :
    (∃ before after, text.toList = before ++ ')' :: after ∧ byteLength before = close) ∧
      ∀ spec ∈ decl.specs, spec.start ≤ close := by
  obtain ⟨lexemes, items, reads⟩ := readsAs_of_unbroken unbroken
  rw [importDecls_eq reads] at member
  have listed : decl ∈ declsOf (allItems (placeTokens {} lexemes)).1 := by
    rw [reads.reads]
    exact member
  obtain ⟨front, read, behind, made, decls⟩ := declRead_of_mem reads.closed listed
  cases decls with
  | single => cases closes
  | @group key opened closed body specs _ _ inner mark =>
    cases closes
    constructor
    · -- The closing token is made of one character of the text.
      have split : placeTokens {} lexemes = (front ++ key :: opened :: body) ++ closed :: behind := by
        rw [made]
        simp
      obtain ⟨before, _, chars, tail, stands, -⟩ :=
        reads.lexes.stands split (Token.plain_of_isMark mark)
      have one : chars = [')'] := by
        have whole : closed.text = String.ofList chars := by
          conv_lhs => rw [stands.made]
          rfl
        simp only [Token.isMark, Bool.and_eq_true, beq_iff_eq] at mark
        rw [mark.2] at whole
        simpa using (congrArg String.toList whole).symm
      refine ⟨lexemeChars before, tail, ?_, stands.start.symm⟩
      rw [stands.front.chars, one]
      rfl
    · -- Tokens stand in order, so those of the imports end in front of the closing one.
      intro spec among
      obtain ⟨token, inside, begins⟩ := inner.exists_start spec among
      have ascending := (placeTokens_ascending {} lexemes).1
      rw [made] at ascending
      have ordered := (List.pairwise_append.mp (List.pairwise_append.mp ascending).2.1).1
      have before : token.stop ≤ closed.start :=
        (List.pairwise_append.mp ordered).2.2 token (by simp [inside]) closed (by simp)
      rw [Token.stop] at before
      omega

/-- A text with parentheses around some of its imports has a last declaration of that kind. -/
theorem exists_closesLast (unbroken : (importsFile text).broken = false)
    (member : decl ∈ (importsFile text).importDecls) (closes : decl.close = some close) :
    ∃ last final, lastGroup? (importsFile text) = some (last, final) ∧
      ClosesLast text last final := by
  cases found : lastGroup? (importsFile text) with
  | none =>
    rw [lastGroup?_eq_none found decl member] at closes
    cases closes
  | some group =>
    obtain ⟨last, final⟩ := group
    obtain ⟨among, ends⟩ := lastGroup?_eq_some found
    refine ⟨last, final, rfl, ?_, ends, (parenthesis_of_close unbroken among ends).1⟩
    -- What stands behind the last declaration that is kept was left out, so nothing closes it.
    rw [lastGroup?] at found
    obtain ⟨kept, whole⟩ := List.getLast?_eq_some_iff.mp found
    obtain ⟨front, rest, split, -, ending⟩ := List.filterMap_eq_append_iff.mp whole
    obtain ⟨between, decl', back, rfl, -, here, none⟩ := List.filterMap_eq_cons_iff.mp ending
    obtain ⟨_, -, same⟩ := Option.map_eq_some_iff.mp here
    cases same
    refine ⟨front ++ between, back, by simp [split], fun later member => ?_⟩
    simpa using List.filterMap_eq_nil_iff.mp none later member

/--
Edits that add imports to a declaration without losing or repeating any.

All text put in is one line for each import, and else line breaks.
Where the imports have lines, no two edits are for one offset and placement.
-/
structure AddLines (setting : Option String) (text : String) (decl : ImportDecl) (close : Nat)
    (edits : List Edit) (imports : List Import) : Prop where
  held : HoldsLines (insertedText edits) imports
  insertions : ∀ edit ∈ edits, edit.stop = edit.start ∧ edit.start ≤ close
  ascending : edits.Pairwise fun first second => first.start ≤ second.start
  placed : isInline (placesOf setting text decl) close = false →
    FillPlaces setting (placesOf setting text decl) close edits imports
  single : isInline (placesOf setting text decl) close = true → edits.length ≤ 1

/-- Without imports to add there is nothing to do. -/
theorem addLines_nil : AddLines setting text decl close [] [] where
  held := .nil
  insertions := by simp
  ascending := .nil
  placed _ := ⟨[], by simp, by simp, .nil⟩
  single _ := Nat.zero_le 1

/-- The edits of a declaration add lines for all imports they are made for. -/
theorem addLines_blockEdits (starts : ∀ spec ∈ decl.specs, spec.start ≤ close)
    (imports : List Import) : AddLines setting text decl close
      (blockEdits setting (placesOf setting text decl) close imports) imports := by
  cases inline : isInline (placesOf setting text decl) close with
  | true =>
    -- There is one edit, in front of the closing parenthesis.
    rw [blockEdits_of_inline inline]
    have held := holdsLines_inline imports
    refine ⟨?_, by simp [Edit.insertion], List.pairwise_singleton _ _, by simp [inline], by simp⟩
    rw [insertedText, List.flatMap_singleton, Edit.insertion]
    exact held
  | false =>
    have filled : FillPlaces setting (placesOf setting text decl) close
        (blockEdits setting (placesOf setting text decl) close imports) imports :=
      fillPlaces_blockEdits inline imports
    refine ⟨filled.holdsLines, ?_, blockEdits_pairwise inline imports, fun _ => filled,
      by simp [inline]⟩
    intro edit member
    obtain ⟨offset, new, rfl, place⟩ := mem_blockEdits member
    refine ⟨rfl, ?_⟩
    rw [isInline, Bool.or_eq_false_iff] at inline
    rcases place with rfl | ⟨place, inside, beside⟩
    · exact Nat.le_refl _
    have within : place.lineStop ≤ close := by
      simpa using List.any_eq_false.mp inline.2 place inside
    obtain ⟨spec, among, rfl⟩ := List.mem_map.mp inside
    rw [Edit.insertion]
    rcases beside with start | stop
    · -- A line begins at or before the import that stands on it.
      rw [start, placedSpec, SourceFile.lines, importsFile, ofText_text]
      exact (lineStart_spec text spec.start).2.1.trans (starts spec among)
    · rw [stop]
      exact within

/--
A merge between parentheses loses no import and adds none twice.

It has edits for just the imports that are missing, none of them behind the last closing parenthesis.
-/
theorem importEdits_addLines (unbroken : (importsFile text).broken = false)
    (member : decl ∈ (importsFile text).importDecls) (closes : decl.close = some close)
    (setting : Option String) (imports : List Import) :
    ∃ edits new last final, importEdits setting text imports = .ok edits ∧
      (new.Nodup ∧ ∀ needed, needed ∈ new ↔ needed ∈ imports ∧ needed ∉ importsOf text) ∧
      ClosesLast text last final ∧ AddLines setting text last final edits new := by
  obtain ⟨last, final, found, closing⟩ := exists_closesLast unbroken member closes
  obtain ⟨among, ends⟩ := lastGroup?_eq_some found
  have starts := (parenthesis_of_close unbroken among ends).2
  have missing : (missingImports (importsFile text) imports).Nodup ∧ ∀ needed,
      needed ∈ missingImports (importsFile text) imports ↔
        needed ∈ imports ∧ needed ∉ importsOf text :=
    ⟨nodup_missingImports _ imports, fun needed => mem_missing⟩
  by_cases lacks : missingImports (importsFile text) imports = []
  · rw [lacks] at missing
    exact ⟨[], [], last, final, importEdits_of_none lacks, missing, closing, addLines_nil⟩
  · exact ⟨_, _, last, final, importEdits_of_group lacks found, missing, closing,
      addLines_blockEdits starts _⟩

/-- A file with a group of standard imports and a group of others. -/
def twoGroups : String :=
  "package p\n\nimport (\n\t\"fmt\"\n\n\t\"b.c/d\"\n)\n"

/-- Imports of three groups, of which one is there already and one is asked for twice. -/
def wantedImports : List Import :=
  [⟨"os", none⟩, ⟨"a.b/c", some "x"⟩, ⟨"own/e", none⟩, ⟨"fmt", none⟩, ⟨"os", none⟩,
    ⟨"errors", none⟩]

/-- Four lines are added, at four places. -/
theorem importEdits_addLines_twoGroups : (importsFile twoGroups).broken = false ∧
    ∃ edits new last final, importEdits (some "own") twoGroups wantedImports = .ok edits ∧
      edits.map Edit.start = [20, 27, 28, 37] ∧
      (new.Nodup ∧ ∀ needed, needed ∈ new ↔
        needed ∈ wantedImports ∧ needed ∉ importsOf twoGroups) ∧
      ClosesLast twoGroups last final ∧
      AddLines (some "own") twoGroups last final edits new := by
  have unbroken : (importsFile twoGroups).broken = false := by decide +kernel
  have closes : ∃ decl ∈ (importsFile twoGroups).importDecls, decl.close = some 37 := by
    decide +kernel
  have places : ((importEdits (some "own") twoGroups wantedImports).toOption.map fun edits =>
      edits.map Edit.start) = some [20, 27, 28, 37] := by decide +kernel
  obtain ⟨decl, member, closes⟩ := closes
  obtain ⟨edits, new, last, final, made, added⟩ :=
    importEdits_addLines unbroken member closes (some "own") wantedImports
  rw [made] at places
  exact ⟨unbroken, edits, new, last, final, made, Option.some.inj places, added⟩

end Closing

end Scaffold
