import Scaffold.Proofs.Text.Lines
import Scaffold.Text.Position

/-! Places and byte offsets of a text stand for each other, one for one and in the same order. -/

namespace Scaffold

/-- Where lines begin that follow each other from some offset on, with a break behind each. -/
def lineStarts (offset : Nat) : List (List Char) → List Nat
  | [] => []
  | line :: rest => offset :: lineStarts (offset + byteLength line + 1) rest

/-- A text has a line more than it has line breaks. -/
theorem length_splitOn (separator : Char) (text : List Char) :
    (splitOn separator text).length = text.count separator + 1 := by
  induction text with
  | nil => rfl
  | cons c text ih =>
    rw [splitOn, List.count_cons]
    split
    · rw [List.length_cons, ih]
    · -- Any other character lengthens the first piece.
      cases pieces : splitOn separator text with
      | nil => exact absurd pieces (splitOn_ne_nil separator text)
      | cons piece more => rw [← ih, pieces]; rfl

/-- A line break is one byte long. -/
theorem byteLength_break : byteLength ['\n'] = 1 := rfl

section Starts

variable {offset line start : Nat} {lines : List (List Char)} {shown : List Char}

@[simp] theorem length_lineStarts (offset : Nat) (lines : List (List Char)) :
    (lineStarts offset lines).length = lines.length := by
  induction lines generalizing offset with
  | nil => rfl
  | cons first rest ih => rw [lineStarts, List.length_cons, List.length_cons, ih]

/-- The starts of a text are those of its lines. -/
theorem startsBehindBreaks_eq (offset : Nat) (text : List Char) :
    offset :: startsBehindBreaks offset text = lineStarts offset (splitOn '\n' text) := by
  induction text generalizing offset with
  | nil => rfl
  | cons c text ih =>
    rw [splitOn, startsBehindBreaks]
    split
    · -- A break ends an empty line, and is one byte long.
      rename_i broken
      rw [eq_of_beq broken, lineStarts, ← ih]
      rfl
    · have rest := ih (offset + c.utf8Size)
      cases pieces : splitOn '\n' text with
      | nil => exact absurd pieces (splitOn_ne_nil '\n' text)
      | cons piece more =>
        rw [pieces, lineStarts, List.cons.injEq] at rest
        rw [lineStarts, byteLength_cons, ← Nat.add_assoc, ← rest.2]

/-- Behind a line comes its break, and then the next line. -/
theorem lineStarts_next (begins : (lineStarts offset lines)[line]? = some start)
    (held : lines[line]? = some shown) :
    (lineStarts offset lines)[line + 1]? =
      if line + 1 < lines.length then some (start + byteLength shown + 1) else none := by
  induction lines generalizing offset line with
  | nil => cases held
  | cons first rest ih =>
    cases line with
    | zero =>
      cases held
      cases begins
      cases rest <;> rfl
    | succ line =>
      rw [lineStarts, List.getElem?_cons_succ] at begins ⊢
      rw [ih begins held]
      simp

/-- The last line ends with the text. -/
theorem lineStarts_last (begins : (lineStarts offset lines)[line]? = some start)
    (held : lines[line]? = some shown) (last : line + 1 = lines.length) :
    start + byteLength shown = offset + byteLength (joinWith ['\n'] lines) := by
  induction lines generalizing offset line with
  | nil => cases held
  | cons first rest ih =>
    cases line with
    | zero =>
      cases held
      cases begins
      obtain rfl : rest = [] := by simpa using last.symm
      rfl
    | succ line =>
      rw [lineStarts, List.getElem?_cons_succ] at begins
      rw [ih begins held (by simpa using last)]
      cases rest with
      | nil => cases held
      | cons next more =>
        rw [joinWith, byteLength_append, byteLength_append, byteLength_break]
        omega

end Starts

/-- A line of a text: its number, the offset at which it begins, and what it holds. -/
structure IsLine (text : String) (line start : Nat) (shown : List Char) : Prop where
  begins : (LineIndex.ofText text).starts[line]? = some start
  held : (splitOn '\n' text.toList)[line]? = some shown

theorem starts_eq (text : String) :
    (LineIndex.ofText text).starts = lineStarts 0 (splitOn '\n' text.toList) :=
  startsBehindBreaks_eq 0 text.toList

section Line

variable {text : String} {line start column offset : Nat} {shown : List Char}

/-- Each number below that of the lines is that of a line. -/
theorem exists_isLine (below : line < text.toList.count '\n' + 1) :
    ∃ start shown, IsLine text line start shown := by
  rw [← length_splitOn] at below
  have begins := below
  rw [← length_lineStarts 0, ← starts_eq] at begins
  exact ⟨_, _, List.getElem?_eq_getElem begins, List.getElem?_eq_getElem below⟩

namespace IsLine

theorem lt (here : IsLine text line start shown) : line < text.toList.count '\n' + 1 := by
  rw [← length_splitOn]
  exact (List.getElem?_eq_some_iff.mp here.held).1

theorem next (here : IsLine text line start shown) :
    (LineIndex.ofText text).starts[line + 1]? =
      if line + 1 < text.toList.count '\n' + 1 then some (start + byteLength shown + 1)
      else none := by
  have begins := here.begins
  rw [starts_eq] at begins ⊢
  rw [lineStarts_next begins here.held, length_splitOn]

/-- Behind a line begins the next one, or the text ends with it. -/
theorem ends (here : IsLine text line start shown) :
    (LineIndex.ofText text).starts[line + 1]? = some (start + byteLength shown + 1) ∨
      (LineIndex.ofText text).starts[line + 1]? = none ∧
        (LineIndex.ofText text).length = start + byteLength shown := by
  have next := here.next
  split at next
  · exact .inl next
  · refine .inr ⟨next, ?_⟩
    rename_i last
    have begins := here.begins
    have below := here.lt
    rw [starts_eq] at begins
    rw [lineStarts_last begins here.held (by rw [length_splitOn]; omega), joinWith_splitOn,
      Nat.zero_add]
    rfl

/-- A line lies in front of all those behind it, with a break between them. -/
theorem lt_start (here : IsLine text line start shown) {other start' : Nat} {shown' : List Char}
    (there : IsLine text other start' shown') (before : line < other) :
    start + byteLength shown < start' := by
  have further : (LineIndex.ofText text).starts[line + 1]? =
      some (start + byteLength shown + 1) := by
    have below := there.lt
    rw [here.next, if_pos (by omega)]
  obtain ⟨inside, begins⟩ := List.getElem?_eq_some_iff.mp there.begins
  obtain ⟨within, following⟩ := List.getElem?_eq_some_iff.mp further
  rcases Nat.lt_or_eq_of_le (Nat.succ_le_of_lt before) with beyond | same
  · -- Lines begin in ascending order, so a later line begins behind the next one.
    have := List.pairwise_iff_getElem.mp (starts_pairwise text) _ _ within inside beyond
    omega
  · subst same
    have same := Option.some.inj (there.begins.symm.trans further)
    omega

end IsLine

/-- No line goes beyond the end of the text. -/
theorem IsLine.within (here : IsLine text line start shown) :
    start + byteLength shown ≤ byteLength text.toList := by
  -- The last line ends with the text, and all others end in front of it.
  obtain ⟨opens, held, final⟩ := exists_isLine (Nat.lt_succ_self (text.toList.count '\n'))
  have ends : byteLength text.toList = opens + byteLength held := by
    rcases final.ends with next | ⟨-, last⟩
    · rw [final.next, if_neg (Nat.lt_irrefl _)] at next
      cases next
    · exact last
  rcases Nat.lt_or_eq_of_le (Nat.le_of_lt_succ here.lt) with before | same
  · have := here.lt_start final before
    omega
  · subst same
    cases here.begins.symm.trans final.begins
    cases here.held.symm.trans final.held
    exact ends.ge

end Line

end Scaffold
