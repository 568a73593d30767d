import Mathlib.Data.List.Count
import Scaffold.Test.Rendered

/-! The lines of a test by their depth: what its table declares and what its cases run. -/

namespace Scaffold

section Depth

variable {depth : Nat} {text shown : String} {body : List Line}

/-- A line outside all blocks is found there and nowhere else. -/
theorem count_line (depth : Nat) (text shown : String) :
    (line shown).count ⟨depth, text⟩ = if depth = 0 ∧ shown = text then 1 else 0 := by
  rw [line, List.count_singleton]
  simp only [beq_iff_eq, Line.mk.injEq, eq_comm (a := 0)]

theorem count_line_succ (depth : Nat) (text shown : String) :
    (line shown).count ⟨depth + 1, text⟩ = 0 := by
  simp [count_line]

theorem count_line_ne (differs : shown ≠ text) : (line shown).count ⟨depth, text⟩ = 0 := by
  simp [count_line, differs]

/-- Lines inside a block are found one step deeper. -/
theorem count_inside_succ (depth : Nat) (text : String) (body : List Line) :
    (inside body).count ⟨depth + 1, text⟩ = body.count ⟨depth, text⟩ := by
  have deeper : Function.Injective fun inner : Line => (⟨inner.depth + 1, inner.text⟩ : Line) := by
    rintro ⟨one, first⟩ ⟨other, second⟩ same
    simpa using same
  exact List.count_map_of_injective body _ deeper ⟨depth, text⟩

theorem count_inside_zero (text : String) (body : List Line) :
    (inside body).count ⟨0, text⟩ = 0 := by
  rw [List.count_eq_zero, inside]
  simp

/-- A block is found by its body, one step deeper. -/
theorem count_block_succ (depth : Nat) (text opening closing : String) (body : List Line) :
    (block opening body closing).count ⟨depth + 1, text⟩ = body.count ⟨depth, text⟩ := by
  rw [block, List.count_append, List.count_append, count_line_succ, count_line_succ,
    count_inside_succ, Nat.zero_add, Nat.add_zero]

/-- At its own depth a block shows its two ends. -/
theorem count_block_zero (text opening closing : String) (body : List Line) :
    (block opening body closing).count ⟨0, text⟩ =
      (line opening).count ⟨0, text⟩ + (line closing).count ⟨0, text⟩ := by
  rw [block, List.count_append, List.count_append, count_inside_zero, Nat.add_zero]

end Depth

/-- Texts with different characters at one place are different. -/
theorem ne_of_char {first second : String} {place : Nat} {c d : Char}
    (one : first.toList[place]? = some c) (other : second.toList[place]? = some d)
    (differ : c ≠ d) : first ≠ second := by
  rintro rfl
  exact differ (Option.some.inj (one.symm.trans other))

/-- What follows a text leaves its characters in place. -/
theorem char_append {lead : String} {place : Nat} {c : Char} (rest : String)
    (held : lead.toList[place]? = some c) : (lead ++ rest).toList[place]? = some c := by
  rw [String.toList_append, List.getElem?_append_left (List.getElem?_eq_some_iff.mp held).1, held]

/-- Texts that end with different characters are different. -/
theorem ne_of_last {first second : String} {c d : Char} (one : first.toList.getLast? = some c)
    (other : second.toList.getLast? = some d) (differ : c ≠ d) : first ≠ second := by
  rintro rfl
  exact differ (Option.some.inj (one.symm.trans other))

theorem last_append {trail : String} {c : Char} (front : String)
    (ends : trail.toList.getLast? = some c) : (front ++ trail).toList.getLast? = some c := by
  rw [String.toList_append, List.getLast?_append, ends]
  rfl

/-- The elements of a list stand beside their indices. -/
theorem getElem?_indexed {α : Type} (xs : List α) (index : Nat) :
    (indexed xs)[index]? = xs[index]?.map (Prod.mk index) := by
  rw [indexed, List.zip, List.getElem?_zipWith]
  cases held : xs[index]? with
  | none => simp
  | some x =>
    rw [List.getElem?_range (List.getElem?_eq_some_iff.mp held).1]
    rfl

theorem mem_indexed {α : Type} {xs : List α} {index : Nat} {x : α} :
    (index, x) ∈ indexed xs ↔ xs[index]? = some x := by
  rw [List.mem_iff_getElem?]
  constructor
  · rintro ⟨place, held⟩
    rw [getElem?_indexed] at held
    obtain ⟨y, there, same⟩ := Option.map_eq_some_iff.mp held
    cases same
    exact there
  · intro held
    exact ⟨index, by rw [getElem?_indexed, held]; rfl⟩

theorem forall_mem_indexed {α : Type} (xs : List α) (holds : α → Prop) :
    (∀ entry ∈ indexed xs, holds entry.2) ↔ ∀ x ∈ xs, holds x := by
  constructor
  · intro all x member
    obtain ⟨index, held⟩ := List.mem_iff_getElem?.mp member
    exact all (index, x) (mem_indexed.mpr held)
  · intro all entry member
    exact all entry.2 (List.mem_of_getElem? (mem_indexed.mp member))

section Indexed

variable {α β : Type} [BEq β] [LawfulBEq β] {f : Nat × α → List β} {xs : List α} {b : β}

/-- What comes from no element is not found. -/
theorem count_indexed_zero (none : ∀ index x, xs[index]? = some x → (f (index, x)).count b = 0) :
    ((indexed xs).flatMap f).count b = 0 := by
  rw [List.count_eq_zero]
  intro member
  obtain ⟨⟨index, x⟩, held, inside⟩ := List.mem_flatMap.mp member
  exact List.count_eq_zero.mp (none index x (mem_indexed.mp held)) inside

/-- What comes from one element alone is found as often as that element gives it. -/
theorem count_indexed {index : Nat} {x : α} (held : xs[index]? = some x)
    (others : ∀ other y, xs[other]? = some y → other ≠ index → (f (other, y)).count b = 0) :
    ((indexed xs).flatMap f).count b = (f (index, x)).count b := by
  -- The element divides the list, and nothing comes from either side.
  have whole : indexed xs = (indexed xs).take index ++
      (index, x) :: (indexed xs).drop (index + 1) := by
    have here : (indexed xs)[index]? = some (index, x) := by
      rw [getElem?_indexed, held]
      rfl
    obtain ⟨bound, found⟩ := List.getElem?_eq_some_iff.mp here
    rw [← found, ← List.drop_eq_getElem_cons bound, List.take_append_drop]
  have silent : ∀ part : List (Nat × α), (∀ entry ∈ part, entry ∈ indexed xs ∧ entry.1 ≠ index) →
      (part.flatMap f).count b = 0 := by
    intro part apart
    rw [List.count_eq_zero]
    intro member
    obtain ⟨⟨other, y⟩, held, inside⟩ := List.mem_flatMap.mp member
    obtain ⟨within, differs⟩ := apart _ held
    exact List.count_eq_zero.mp (others other y (mem_indexed.mp within) differs) inside
  have firsts : (indexed xs).map Prod.fst = List.range xs.length := by
    rw [indexed, List.map_fst_zip]
    simp
  have ascending : ((indexed xs).map Prod.fst).Pairwise (· < ·) := by
    rw [firsts]
    exact List.pairwise_lt_range
  rw [whole, List.map_append, List.map_cons, List.pairwise_append, List.pairwise_cons] at ascending
  obtain ⟨-, ⟨later, -⟩, earlier⟩ := ascending
  rw [whole, List.flatMap_append, List.flatMap_cons, List.count_append, List.count_append,
    silent, silent]
  · omega
  · intro entry member
    have behind := later entry.1 (List.mem_map_of_mem member)
    exact ⟨List.mem_of_mem_drop member, by omega⟩
  · intro entry member
    have before := earlier entry.1 (List.mem_map_of_mem member) index (by simp)
    exact ⟨List.mem_of_mem_take member, by omega⟩

end Indexed

/-- The declaration of a field. -/
def Field.declaration (field : Field) : String :=
  field.name ++ " " ++ field.type

/-- The parameters of the constructor, if there is one. -/
def TestPlan.constructorArgs (plan : TestPlan) : List Field :=
  match plan.receiver.bind Receiver.constructor with
  | some constructor => constructor.args
  | none => []

/-- The parameters that a test case has fields for. -/
def TestPlan.params (plan : TestPlan) : List Field :=
  plan.constructorArgs.filter Field.isNamed ++ plan.target.args.filter Field.isNamed

/-- The lines between the braces of the table's type, behind the name of the test case. -/
def TestPlan.fieldLines (plan : TestPlan) : List Line :=
  paramLines "// Named input parameters for receiver constructor." plan.constructorArgs
    ++ paramLines "// Named input parameters for target function." plan.target.args
    ++ wantLines plan.target.results

/-- Declarations stand outside all blocks. -/
theorem depth_paramLines {heading : String} {args : List Field} {shown : Line}
    (member : shown ∈ paramLines heading args) : shown.depth = 0 := by
  rw [paramLines] at member
  split at member
  · cases member
  · simp only [line, List.mem_append, List.mem_singleton, List.mem_flatMap] at member
    rcases member with rfl | ⟨arg, -, rfl⟩ <;> rfl

theorem depth_wantLines {results : List Field} {shown : Line}
    (member : shown ∈ wantLines results) : shown.depth = 0 := by
  obtain ⟨⟨index, result⟩, -, member⟩ := List.mem_flatMap.mp member
  simp only [line] at member
  split at member <;> rw [List.mem_singleton.mp member]

theorem depth_fieldLines {plan : TestPlan} {shown : Line} (member : shown ∈ plan.fieldLines) :
    shown.depth = 0 := by
  rw [TestPlan.fieldLines, List.mem_append, List.mem_append] at member
  rcases member with (one | other) | want
  · exact depth_paramLines one
  · exact depth_paramLines other
  · exact depth_wantLines want

section Plan

variable (plan : TestPlan)

theorem tableLines_eq : tableLines plan =
    line "tests := []struct \x7b"
      ++ inside (line "name string // description of this test case" ++ plan.fieldLines)
      ++ block "\x7d\x7b" (line "// TODO: Add test cases.") "\x7d" := by
  rw [TestPlan.fieldLines, TestPlan.constructorArgs, ← List.append_assoc, ← List.append_assoc]
  rfl

/-- What a test case runs stands three blocks deep. -/
theorem count_lines_case (depth : Nat) (text : String) :
    plan.lines.count ⟨depth + 3, text⟩ = (caseLines plan).count ⟨depth, text⟩ := by
  have shallow : plan.fieldLines.count ⟨depth + 1, text⟩ = 0 :=
    List.count_eq_zero.mpr fun member => by cases depth_fieldLines member
  rw [TestPlan.lines, List.count_append, count_line_succ, count_block_succ, List.count_append,
    count_block_succ, count_block_succ, tableLines_eq, List.count_append, List.count_append,
    count_line_succ, count_inside_succ, count_block_succ, count_line_succ, List.count_append,
    count_line_succ, shallow]
  omega

/-- What a table declares stands two blocks deep, with what begins like a declaration. -/
theorem count_lines_field {text : String} (wants : text.toList[0]? = some 'w') :
    plan.lines.count ⟨2, text⟩ = plan.fieldLines.count ⟨0, text⟩ := by
  -- No other line at this depth begins with the letter.
  have name : "name string // description of this test case" ≠ text :=
    ne_of_char (c := 'n') (by decide) wants (by decide)
  have rows : "// TODO: Add test cases." ≠ text :=
    ne_of_char (c := '/') (by decide) wants (by decide)
  have opening : "t.Run(tt.name, func(t *" ++ plan.testing ++ ".T) \x7b" ≠ text :=
    ne_of_char (char_append _ (char_append _ (by decide : _ = some 't'))) wants (by decide)
  have closing : "\x7d)" ≠ text := ne_of_char (c := '\x7d') (by decide) wants (by decide)
  rw [TestPlan.lines, List.count_append, count_line_succ, count_block_succ, List.count_append,
    count_block_succ, count_block_zero, tableLines_eq, List.count_append, List.count_append,
    count_line_succ, count_inside_succ, count_block_succ, List.count_append, count_line_ne name,
    count_line_ne rows, count_line_ne opening, count_line_ne closing]
  omega

/-- Parameters are declared one by one. -/
theorem count_paramLines {heading text : String} (args : List Field) (differs : heading ≠ text) :
    (paramLines heading args).count ⟨0, text⟩ =
      ((args.filter Field.isNamed).map Field.declaration).count text := by
  have declared : ∀ fields : List Field,
      (fields.flatMap fun arg => line (arg.name ++ " " ++ arg.type)).count ⟨0, text⟩ =
        (fields.map Field.declaration).count text := by
    intro fields
    induction fields with
    | nil => rfl
    | cons field fields ih =>
      rw [List.flatMap_cons, List.count_append, ih, count_line, List.map_cons, List.count_cons,
        Nat.add_comm]
      simp [Field.declaration]
  rw [paramLines]
  split
  · simp [*]
  · rw [List.count_append, count_line_ne differs, declared, Nat.zero_add]

/-- A table declares parameters and expected results. -/
theorem count_fieldLines {text : String} (wants : text.toList[0]? = some 'w') :
    plan.fieldLines.count ⟨0, text⟩ =
      (plan.params.map Field.declaration).count text +
        (wantLines plan.target.results).count ⟨0, text⟩ := by
  have one : "// Named input parameters for receiver constructor." ≠ text :=
    ne_of_char (c := '/') (by decide) wants (by decide)
  have other : "// Named input parameters for target function." ≠ text :=
    ne_of_char (c := '/') (by decide) wants (by decide)
  rw [TestPlan.fieldLines, List.count_append, List.count_append, count_paramLines _ one,
    count_paramLines _ other, TestPlan.params, List.map_append, List.count_append]

end Plan

end Scaffold
