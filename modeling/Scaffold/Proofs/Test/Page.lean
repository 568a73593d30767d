import Mathlib.Data.List.Basic
import Scaffold.Proofs.FilePath
import Scaffold.Test.Rendered

/-! Nested lines written one by one, on a page that knows no more than its text and its depth. -/

namespace Scaffold

/-- What is done to a page. -/
inductive Entry
  | line (text : String)
  /-- A line that opens a block. -/
  | opening (text : String)
  /-- A line that closes a block. -/
  | closing (text : String)
  /-- A block is opened without a line. -/
  | deepen
  deriving DecidableEq, Repr

namespace Entry

/-- The line that is written, if one is. -/
def text? : Entry → Option String
  | .line text | .opening text | .closing text => some text
  | .deepen => none

/-- Whether a line is written. -/
def writes (entry : Entry) : Bool :=
  entry.text?.isSome

/-- Whether a block is open behind the entry that was not before it. -/
def opens : Entry → Bool
  | .opening _ | .deepen => true
  | .line _ | .closing _ => false

/-- Whether the last open block ends. -/
def closes : Entry → Bool
  | .closing _ => true
  | .line _ | .opening _ | .deepen => false

end Entry

/-- The number of blocks that are opened by some entries and not closed by them. -/
def blocksOpen (entries : List Entry) : Int :=
  entries.countP Entry.opens - entries.countP Entry.closes

/-- The text written so far, and the depth of the next line. -/
structure Page where
  text : String
  depth : Nat
  deriving DecidableEq, Repr

namespace Page

/-- A page without text. -/
def blank : Page :=
  ⟨"", 0⟩

/-- The page with a line more. -/
def write (page : Page) (text : String) : Page :=
  ⟨page.text ++ (Line.mk page.depth text).render, page.depth⟩

/-- The page with one block more open. -/
def deeper (page : Page) : Page :=
  ⟨page.text, page.depth + 1⟩

/-- The page with one block less open; outside all blocks, nothing changes. -/
def shallower (page : Page) : Page :=
  ⟨page.text, page.depth - 1⟩

/-- The page behind an entry. -/
def enter (page : Page) : Entry → Page
  | .line text => page.write text
  | .opening text => (page.write text).deeper
  | .closing text => page.shallower.write text
  | .deepen => page.deeper

/-- The page behind some entries. -/
def enterAll (page : Page) (entries : List Entry) : Page :=
  entries.foldl enter page

/-- The line that an entry adds to a page. -/
def lineOf? (page : Page) : Entry → Option Line
  | .line text | .opening text => some ⟨page.depth, text⟩
  | .closing text => some ⟨page.depth - 1, text⟩
  | .deepen => none

/-- The lines that some entries add to a page. -/
def linesOf (page : Page) : List Entry → List Line
  | [] => []
  | entry :: rest => (page.lineOf? entry).toList ++ (page.enter entry).linesOf rest

/-- Each entry that closes a block finds one open. -/
def IsGuarded (page : Page) : List Entry → Prop
  | [] => True
  | entry :: rest => (entry.closes = true → 0 < page.depth) ∧ (page.enter entry).IsGuarded rest

end Page

/-- The text of lines and more lines. -/
theorem renderLines_append (first second : List Line) :
    renderLines (first ++ second) = renderLines first ++ renderLines second := by
  rw [renderLines, renderLines, renderLines, List.map_append, String.join_append]

theorem renderLines_singleton (shown : Line) : renderLines [shown] = shown.render :=
  String.empty_append

section Steps

variable {page : Page} {entry : Entry}

theorem blocksOpen_cons (entry : Entry) (entries : List Entry) :
    blocksOpen (entry :: entries) = blocksOpen [entry] + blocksOpen entries := by
  simp only [blocksOpen, List.countP_cons, List.countP_nil]
  omega

/-- An entry adds its line to the text. -/
theorem Page.text_enter (page : Page) (entry : Entry) :
    (page.enter entry).text = page.text ++ renderLines (page.lineOf? entry).toList := by
  cases entry with
  | line text | opening text | closing text =>
    rw [Page.lineOf?, Option.toList_some, renderLines_singleton]
    rfl
  | deepen => exact String.append_empty.symm

/-- The depth follows the blocks that open and close. -/
theorem Page.depth_enter (guarded : entry.closes = true → 0 < page.depth) :
    ((page.enter entry).depth : Int) = page.depth + blocksOpen [entry] := by
  cases entry with
  | line text => exact (Int.add_zero _).symm
  | opening text | deepen => exact Int.natCast_succ _
  | closing text =>
    have held := guarded rfl
    show ((page.depth - 1 : Nat) : Int) = page.depth + (0 - 1)
    omega

/-- The line of an entry stands as deep as there are blocks open, and one less where one ends. -/
theorem Page.depth_lineOf? (guarded : entry.closes = true → 0 < page.depth) {shown : Line}
    (adds : page.lineOf? entry = some shown) :
    entry.text? = some shown.text ∧
      (shown.depth : Int) = page.depth - if entry.closes then 1 else 0 := by
  cases entry with
  | line text | opening text =>
    cases adds
    exact ⟨rfl, (Int.sub_zero _).symm⟩
  | closing text =>
    cases adds
    have held := guarded rfl
    refine ⟨rfl, ?_⟩
    show ((page.depth - 1 : Nat) : Int) = page.depth - 1
    omega
  | deepen => cases adds

/-- An entry adds a line exactly if it writes one. -/
theorem Page.isSome_lineOf? (page : Page) (entry : Entry) :
    (page.lineOf? entry).isSome = entry.writes := by
  cases entry <;> rfl

end Steps

section Runs

variable {page : Page} {entries first second : List Entry}

theorem Page.enterAll_append (page : Page) (first second : List Entry) :
    page.enterAll (first ++ second) = (page.enterAll first).enterAll second :=
  List.foldl_append

/-- Entries add their lines to the text, one behind the other. -/
theorem Page.text_enterAll (page : Page) (entries : List Entry) :
    (page.enterAll entries).text = page.text ++ renderLines (page.linesOf entries) := by
  induction entries generalizing page with
  | nil => exact String.append_empty.symm
  | cons entry rest ih =>
    show ((page.enter entry).enterAll rest).text = _
    rw [ih, text_enter, linesOf, renderLines_append, String.append_assoc]

theorem Page.linesOf_append (page : Page) (first second : List Entry) :
    page.linesOf (first ++ second) =
      page.linesOf first ++ (page.enterAll first).linesOf second := by
  induction first generalizing page with
  | nil => rfl
  | cons entry rest ih =>
    rw [List.cons_append, linesOf, ih, linesOf, List.append_assoc]
    rfl

theorem Page.length_linesOf (page : Page) (entries : List Entry) :
    (page.linesOf entries).length = entries.countP Entry.writes := by
  induction entries generalizing page with
  | nil => rfl
  | cons entry rest ih =>
    rw [linesOf, List.length_append, ih, List.countP_cons, ← page.isSome_lineOf? entry,
      Nat.add_comm]
    cases page.lineOf? entry <;> rfl

theorem Page.isGuarded_append :
    page.IsGuarded (first ++ second) ↔
      page.IsGuarded first ∧ (page.enterAll first).IsGuarded second := by
  induction first generalizing page with
  | nil => exact ⟨fun later => ⟨trivial, later⟩, And.right⟩
  | cons entry rest ih =>
    rw [List.cons_append, IsGuarded, ih, IsGuarded, and_assoc]
    rfl

/-- While every closing finds an open block, the depth is the number of open blocks. -/
theorem Page.depth_enterAll (guarded : page.IsGuarded entries) :
    ((page.enterAll entries).depth : Int) = page.depth + blocksOpen entries := by
  induction entries generalizing page with
  | nil => exact (Int.add_zero _).symm
  | cons entry rest ih =>
    obtain ⟨here, later⟩ := guarded
    have next := depth_enter here
    show (((page.enter entry).enterAll rest).depth : Int) = _
    rw [ih later, next, blocksOpen_cons entry rest, Int.add_assoc]

/-- Each line is added by one of the entries, behind the lines of those before it. -/
theorem Page.exists_of_linesOf {index : Nat} {shown : Line}
    (held : (page.linesOf entries)[index]? = some shown) :
    ∃ before entry after, entries = before ++ entry :: after ∧
      before.countP Entry.writes = index ∧ (page.enterAll before).lineOf? entry = some shown := by
  induction entries generalizing page index with
  | nil => cases held
  | cons entry rest ih =>
    -- What holds of the lines behind the first entry holds of them with its line in front.
    have behind : ∀ later, ((page.enter entry).linesOf rest)[later]? = some shown →
        later + (if entry.writes then 1 else 0) = index →
        ∃ before found after, entry :: rest = before ++ found :: after ∧
          before.countP Entry.writes = index ∧
          (page.enterAll before).lineOf? found = some shown := by
      intro later there total
      obtain ⟨before, found, after, rfl, count, adds⟩ := ih there
      refine ⟨entry :: before, found, after, rfl, ?_, adds⟩
      rw [List.countP_cons, count, total]
    have writes := page.isSome_lineOf? entry
    rw [linesOf] at held
    cases adds : page.lineOf? entry with
    | none =>
      rw [adds] at held writes
      apply behind index held
      rw [← writes]
      rfl
    | some line =>
      rw [adds] at held writes
      cases index with
      | zero =>
        cases held
        exact ⟨[], entry, rest, rfl, rfl, adds⟩
      | succ index =>
        apply behind index held
        rw [← writes]
        rfl

end Runs

section Nested

/-- Lines inside as many more blocks as told. -/
def sunk (depth : Nat) (lines : List Line) : List Line :=
  lines.map fun shown => ⟨shown.depth + depth, shown.text⟩

/-- Entries that add some lines to a page of any depth, close what they open, and nothing else. -/
structure Page.Adds (page : Page) (entries : List Entry) (lines : List Line) : Prop where
  lines : page.linesOf entries = sunk page.depth lines
  depth : (page.enterAll entries).depth = page.depth
  guarded : page.IsGuarded entries

/-- Entries that write some lines, wherever they are put. -/
def Lays (entries : List Entry) (lines : List Line) : Prop :=
  ∀ page : Page, page.Adds entries lines

theorem sunk_zero (lines : List Line) : sunk 0 lines = lines :=
  List.map_id lines

theorem sunk_append (depth : Nat) (first second : List Line) :
    sunk depth (first ++ second) = sunk depth first ++ sunk depth second :=
  List.map_append

theorem sunk_line (depth : Nat) (text : String) : sunk depth (line text) = [⟨depth, text⟩] := by
  rw [sunk, line, List.map_singleton, Nat.zero_add]

/-- Lines inside a block on a page stand as deep as those lines on a deeper page. -/
theorem sunk_inside (depth : Nat) (lines : List Line) :
    sunk depth (inside lines) = sunk (depth + 1) lines := by
  rw [sunk, inside, List.map_map, sunk]
  apply List.map_congr_left
  intro shown _
  rw [Function.comp_apply, Nat.add_assoc, Nat.add_comm 1 depth]

namespace Lays

variable {entries more : List Entry} {lines others : List Line}

theorem nil : Lays [] [] :=
  fun _ => ⟨rfl, rfl, trivial⟩

theorem single (text : String) : Lays [.line text] (line text) := by
  intro page
  refine ⟨?_, rfl, ⟨fun closes => ?_, trivial⟩⟩
  · exact (sunk_line page.depth text).symm
  · cases closes

theorem append (first : Lays entries lines) (second : Lays more others) :
    Lays (entries ++ more) (lines ++ others) := by
  intro page
  have front := first page
  have back := second (page.enterAll entries)
  constructor
  · rw [page.linesOf_append, front.lines, back.lines, front.depth, sunk_append]
  · rw [page.enterAll_append, back.depth, front.depth]
  · exact Page.isGuarded_append.mpr ⟨front.guarded, back.guarded⟩

/-- Entries are left out where their lines are. -/
theorem optional (condition : Prop) [Decidable condition] (laid : Lays entries lines) :
    Lays (if condition then entries else []) (if condition then lines else []) := by
  split
  · exact laid
  · exact nil

theorem omitted (condition : Prop) [Decidable condition] (laid : Lays entries lines) :
    Lays (if condition then [] else entries) (if condition then [] else lines) := by
  split
  · exact nil
  · exact laid

/-- Lines that stand outside all blocks are written one by one. -/
theorem flat (shallow : ∀ shown ∈ lines, shown.depth = 0) :
    Lays (lines.map fun shown => .line shown.text) lines := by
  induction lines with
  | nil => exact nil
  | cons shown rest ih =>
    obtain ⟨here, others⟩ := List.forall_mem_cons.mp shallow
    have same : line shown.text = [shown] := by
      rw [line, ← here]
    have first := single shown.text
    rw [same] at first
    exact first.append (ih others)

theorem flatMap {α : Type} {xs : List α} {write : α → List Entry} {added : α → List Line}
    (each : ∀ x ∈ xs, Lays (write x) (added x)) : Lays (xs.flatMap write) (xs.flatMap added) := by
  induction xs with
  | nil => exact nil
  | cons x rest ih =>
    obtain ⟨first, others⟩ := List.forall_mem_cons.mp each
    exact first.append (ih others)

/-- The end of a block takes back the depth that was added for it. -/
theorem deepened (body : Lays entries lines) (closing : String) :
    Lays (.deepen :: (entries ++ [.closing closing])) (inside lines ++ line closing) := by
  intro page
  have within := body page.deeper
  have deep : (page.deeper.enterAll entries).depth = page.depth + 1 := within.depth
  constructor
  · have last : (page.deeper.enterAll entries).linesOf [.closing closing] =
        [⟨page.depth, closing⟩] := by
      show [Line.mk ((page.deeper.enterAll entries).depth - 1) closing] = _
      rw [deep, Nat.add_sub_cancel]
    show page.deeper.linesOf (entries ++ [.closing closing]) = _
    rw [page.deeper.linesOf_append, within.lines, last, sunk_append, sunk_inside, sunk_line]
    rfl
  · show (page.deeper.enterAll (entries ++ [.closing closing])).depth = _
    rw [page.deeper.enterAll_append]
    show (page.deeper.enterAll entries).depth - 1 = _
    rw [deep, Nat.add_sub_cancel]
  · refine ⟨fun closes => ?_, ?_⟩
    · cases closes
    · apply Page.isGuarded_append.mpr
      refine ⟨within.guarded, fun _ => ?_, trivial⟩
      show 0 < (page.deeper.enterAll entries).depth
      omega

/-- A line opens a block, and the end of the block closes it. -/
theorem block (opening : String) (body : Lays entries lines) (closing : String) :
    Lays (.opening opening :: (entries ++ [.closing closing]))
      (Scaffold.block opening lines closing) := by
  intro page
  -- To open a block is to write a line and go deeper.
  have steps := (single opening).append (body.deepened closing) page
  rw [Scaffold.block, List.append_assoc]
  refine ⟨steps.lines, steps.depth, ⟨fun closes => ?_, steps.guarded.2.2⟩⟩
  cases closes

end Lays

end Nested

section Shown

/-- The lines of a text, without the breaks that end them. -/
def textLines (text : String) : List (List Char) :=
  (splitOn '\n' text.toList).dropLast

/-- How many tabs a line begins with. -/
def indentation (shown : List Char) : Nat :=
  (shown.takeWhile (· == '\t')).length

/-- A text that can stand on a line, and that cannot be taken for indentation. -/
def FitsLine (text : String) : Prop :=
  '\n' ∉ text.toList ∧ text.toList.head? ≠ some '\t'

instance (text : String) : Decidable (FitsLine text) :=
  inferInstanceAs (Decidable (_ ∧ _))

/-- Texts that can stand on a line can stand there side by side. -/
theorem FitsLine.append {first second : String} (front : FitsLine first) (back : FitsLine second) :
    FitsLine (first ++ second) := by
  rw [FitsLine, String.toList_append, List.mem_append, List.head?_append]
  refine ⟨fun broken => broken.elim front.1 back.1, ?_⟩
  -- What is put together begins like its first text, or like the second if that is empty.
  cases head : first.toList.head? with
  | none => exact back.2
  | some c =>
    have begins := front.2
    rw [head] at begins
    exact begins

/-- The characters of a line in front of its break. -/
def Line.chars (shown : Line) : List Char :=
  List.replicate shown.depth '\t' ++ shown.text.toList

theorem Line.toList_render (shown : Line) : shown.render.toList = shown.chars ++ ['\n'] := by
  simp [Line.render, Line.chars]

/-- Lines are found again in their text. -/
theorem textLines_renderLines {lines : List Line}
    (fit : ∀ shown ∈ lines, FitsLine shown.text) :
    textLines (renderLines lines) = lines.map Line.chars := by
  have pieces : splitOn '\n' (renderLines lines).toList = lines.map Line.chars ++ [[]] := by
    induction lines with
    | nil => rfl
    | cons shown rest ih =>
      obtain ⟨here, others⟩ := List.forall_mem_cons.mp fit
      have unbroken : '\n' ∉ shown.chars := by
        rw [Line.chars, List.mem_append, List.mem_replicate]
        rintro (⟨-, tab⟩ | inner)
        · cases tab
        · exact here.1 inner
      have text : (renderLines (shown :: rest)).toList =
          shown.chars ++ '\n' :: (renderLines rest).toList := by
        rw [← List.singleton_append, renderLines_append, renderLines_singleton,
          String.toList_append, Line.toList_render, List.append_assoc, List.singleton_append]
      rw [text, splitOn_append, splitOn_of_not_mem unbroken, ih others]
      rfl
  rw [textLines, pieces, List.dropLast_concat]

/-- A line is indented by its depth. -/
theorem indentation_chars {shown : Line} (fits : FitsLine shown.text) :
    indentation shown.chars = shown.depth := by
  have stops : shown.text.toList.takeWhile (· == '\t') = [] := by
    cases text : shown.text.toList with
    | nil => rfl
    | cons c rest =>
      apply List.takeWhile_cons_of_neg
      intro tab
      apply fits.2
      rw [text, eq_of_beq tab]
      rfl
  rw [indentation, Line.chars, List.takeWhile_append_of_pos, stops, List.append_nil,
    List.length_replicate]
  intro c member
  rw [List.eq_of_mem_replicate member]
  rfl

/--
A text that keeps the blocks of the entries it is written by.

Every block that is closed was open, and in the end none is. The lines of the text are those of the
entries, each behind a tab for every block that is open before it; the end of a block counts as
outside of it.
-/
structure KeepsBlocks (entries : List Entry) (text : String) : Prop where
  written : Page.blank.enterAll entries = ⟨text, 0⟩
  guarded : ∀ before closing after, entries = before ++ .closing closing :: after →
    0 < (Page.blank.enterAll before).depth
  counted : (textLines text).length = entries.countP Entry.writes
  indented : ∀ index shown, (textLines text)[index]? = some shown →
    ∃ before entry after said, entries = before ++ entry :: after ∧
      before.countP Entry.writes = index ∧ entry.text? = some said ∧
      shown = List.replicate (indentation shown) '\t' ++ said.toList ∧
      (indentation shown : Int) = blocksOpen before - if entry.closes then 1 else 0

/-- Nested lines keep their blocks when they are written out. -/
theorem Lays.keepsBlocks {entries : List Entry} {lines : List Line} (laid : Lays entries lines)
    (fit : ∀ shown ∈ lines, FitsLine shown.text) : KeepsBlocks entries (renderLines lines) := by
  have adds := laid .blank
  have added : Page.blank.linesOf entries = lines := adds.lines.trans (sunk_zero lines)
  have guards : ∀ {before entry after}, entries = before ++ entry :: after →
      Page.blank.IsGuarded before ∧
        (entry.closes = true → 0 < (Page.blank.enterAll before).depth) := by
    rintro before entry after rfl
    obtain ⟨front, here, -⟩ := Page.isGuarded_append.mp adds.guarded
    exact ⟨front, here⟩
  have rendered := textLines_renderLines fit
  constructor
  · have text := Page.blank.text_enterAll entries
    rw [added] at text
    have depth := adds.depth
    generalize Page.blank.enterAll entries = page at text depth
    obtain ⟨written, deep⟩ := page
    rw [Page.mk.injEq]
    exact ⟨text.trans String.empty_append, depth⟩
  · intro before closing after split
    exact (guards split).2 rfl
  · rw [rendered, List.length_map, ← added, Page.length_linesOf]
  · intro index shown held
    rw [rendered, List.getElem?_map] at held
    obtain ⟨line, there, rfl⟩ := Option.map_eq_some_iff.mp held
    have fits := fit line (List.mem_of_getElem? there)
    rw [← added] at there
    obtain ⟨before, entry, after, split, count, adds⟩ := Page.exists_of_linesOf there
    obtain ⟨front, here⟩ := guards split
    obtain ⟨said, depth⟩ := Page.depth_lineOf? here adds
    rw [Page.depth_enterAll front] at depth
    refine ⟨before, entry, after, line.text, split, count, said, ?_, ?_⟩
    · rw [indentation_chars fits]
      rfl
    · rw [indentation_chars fits, depth]
      show (0 : Int) + blocksOpen before - _ = _
      rw [Int.zero_add]

end Shown

end Scaffold
