import Mathlib.Data.List.Nodup
import Mathlib.Data.List.ProdSigma
import Scaffold.Proofs.Numbering
import Scaffold.Proofs.Test.Lines
import Scaffold.Test.Planning

/-! The parameters of a constructor are named apart from those of the tested function. -/

namespace Scaffold

section Marks

variable {taken names : List String} {mark : String}

/-- A clear mark keeps the names behind it apart from all taken names. -/
theorem isClear_iff :
    isClear taken names mark = true ↔ ∀ name ∈ names, name ≠ "" → mark ++ name ∉ taken := by
  simp only [isClear, List.all_eq_true, Bool.or_eq_true, String.isEmpty_iff, Bool.not_eq_true',
    List.contains_eq_mem, decide_eq_false_iff_not]
  exact forall₂_congr fun name _ => by tauto

/-- Some number is found that makes a clear mark. -/
theorem leastPassing_isClear (taken names : List String) :
    (leastPassing (fun number => isClear taken names ("c" ++ toString number))
      (taken.length * names.length + 1) 2).isSome := by
  -- A number is in the way when a taken name is made of it and of one of the names.
  have blocked : ∀ number : Nat, isClear taken names ("c" ++ toString number) = false →
      ∃ pair ∈ taken ×ˢ names, pair.1 = "c" ++ toString number ++ pair.2 := by
    intro number fails
    rw [Bool.eq_false_iff, Ne, isClear_iff] at fails
    push Not at fails
    obtain ⟨name, member, -, clash⟩ := fails
    exact ⟨(_, name), List.mem_product.mpr ⟨clash, member⟩, rfl⟩
  -- One pair of names is in the way of one number only.
  have single : ∀ (pair : String × String) (first second : Nat),
      pair.1 = "c" ++ toString first ++ pair.2 → pair.1 = "c" ++ toString second ++ pair.2 →
        first = second := by
    intro pair first second here there
    exact numbered_inj ((String.append_left_inj pair.2).mp (here.symm.trans there))
  rw [← List.length_product]
  exact leastPassing_isSome (fun pair number => pair.1 = "c" ++ toString number ++ pair.2)
    blocked single

/--
The first mark that is clear.

The marks of the list come first, and behind them all numbers from two on.
-/
structure IsFirstClear (taken names : List String) (mark : String) : Prop where
  clear : isClear taken names mark = true
  first : (∃ before behind, clashMarks = before ++ mark :: behind ∧
      ∀ earlier ∈ before, isClear taken names earlier = false) ∨
    (∀ listed ∈ clashMarks, isClear taken names listed = false) ∧
      ∃ number, 2 ≤ number ∧ mark = "c" ++ toString number ∧ ∀ earlier, 2 ≤ earlier →
        earlier < number → isClear taken names ("c" ++ toString earlier) = false

/-- The mark that is chosen is the first clear one. -/
theorem isFirstClear_clashMark (taken names : List String) :
    IsFirstClear taken names (clashMark taken names) := by
  rw [clashMark]
  split
  · rename_i mark found
    obtain ⟨clear, before, behind, whole, blocked⟩ := List.find?_eq_some_iff_append.mp found
    exact ⟨clear, .inl ⟨before, behind, whole, by simpa using blocked⟩⟩
  · -- The search for a number does not come back without one.
    rename_i none
    obtain ⟨number, found⟩ := Option.isSome_iff_exists.mp (leastPassing_isClear taken names)
    rw [found]
    obtain ⟨clear, low, -, blocked⟩ := leastPassing_eq_some found
    exact ⟨clear, .inr ⟨by simpa using List.find?_eq_none.mp none, number, low, rfl, blocked⟩⟩

/-- There is one first clear mark. -/
theorem IsFirstClear.eq {other : String} (isFirst : IsFirstClear taken names mark)
    (alsoFirst : IsFirstClear taken names other) : mark = other := by
  obtain ⟨clear, before⟩ := isFirst
  obtain ⟨otherClear, otherBefore⟩ := alsoFirst
  -- A listed mark that is clear leaves no room for a number.
  have listed : ∀ {lead : String}, isClear taken names lead = true →
      (∃ before behind, clashMarks = before ++ lead :: behind ∧
        ∀ earlier ∈ before, isClear taken names earlier = false) →
      clashMarks.find? (isClear taken names) = some lead := by
    rintro lead clear ⟨before, behind, whole, blocked⟩
    exact List.find?_eq_some_iff_append.mpr ⟨clear, before, behind, whole, by simpa using blocked⟩
  rcases before with inList | ⟨none, number, low, rfl, blocked⟩
  · rcases otherBefore with alsoInList | ⟨none, -⟩
    · exact Option.some.inj ((listed clear inList).symm.trans (listed otherClear alsoInList))
    · have member := List.mem_of_find?_eq_some (listed clear inList)
      rw [none mark member] at clear
      cases clear
  · rcases otherBefore with alsoInList | ⟨-, otherNumber, otherLow, rfl, otherBlocked⟩
    · have member := List.mem_of_find?_eq_some (listed otherClear alsoInList)
      rw [none other member] at otherClear
      cases otherClear
    · -- Of two different numbers the lower one would be blocked.
      rcases Nat.lt_trichotomy number otherNumber with below | rfl | above
      · rw [otherBlocked number low below] at clear
        cases clear
      · rfl
      · rw [blocked otherNumber otherLow above] at otherClear
        cases otherClear

theorem clashMark_eq_iff : clashMark taken names = mark ↔ IsFirstClear taken names mark := by
  constructor
  · rintro rfl
    exact isFirstClear_clashMark taken names
  · exact (isFirstClear_clashMark taken names).eq

/-- Names that are apart already are not marked. -/
theorem clashMark_eq_empty (apart : ∀ name ∈ names, name ≠ "" → name ∉ taken) :
    clashMark taken names = "" := by
  refine clashMark_eq_iff.mpr ⟨isClear_iff.mpr ?_, .inl ⟨[], clashMarks.tail, rfl, by simp⟩⟩
  simpa using apart

end Marks

section Marked

/-- A mark stands in front of the names there are. -/
theorem marked_name (mark : String) (arg : Field) :
    (arg.marked mark).name = if arg.name = "" then "" else mark ++ arg.name := by
  rw [Field.marked]
  by_cases unnamed : arg.name = ""
  · simp [Field.isNamed, unnamed]
  · simp [Field.isNamed, unnamed]

@[simp]
theorem isNamed_marked (mark : String) (arg : Field) : (arg.marked mark).isNamed = arg.isNamed := by
  rw [Bool.eq_iff_iff]
  simp only [Field.isNamed, marked_name, Bool.not_eq_true', String.isEmpty_eq_false_iff]
  by_cases unnamed : arg.name = ""
  · simp [unnamed]
  · simp [unnamed, String.append_eq_empty_iff]

/-- The same mark in front of two names keeps them different. -/
theorem marked_name_inj {mark : String} {first second : Field} :
    (first.marked mark).name = (second.marked mark).name ↔ first.name = second.name := by
  rw [marked_name, marked_name]
  by_cases unnamed : first.name = ""
  · by_cases alsoUnnamed : second.name = ""
    · simp [unnamed, alsoUnnamed]
    · simp [unnamed, alsoUnnamed, Ne.symm alsoUnnamed]
  · by_cases alsoUnnamed : second.name = ""
    · simp [unnamed, alsoUnnamed]
    · simp [unnamed, alsoUnnamed, String.append_right_inj]

theorem marked_empty (arg : Field) : arg.marked "" = arg := by
  rw [Field.marked]
  split
  · simp
  · rfl

end Marked

section Separated

variable (plan : TestPlan)

/-- The mark for the parameters of the constructor. -/
def TestPlan.mark : String :=
  clashMark (plan.target.args.map Field.name) (plan.constructorArgs.map Field.name)

/-- The constructor's parameters are marked where they share names with the target's. -/
theorem constructorArgs_separated :
    plan.separated.constructorArgs = plan.constructorArgs.map (Field.marked plan.mark) := by
  rw [TestPlan.mark, TestPlan.separated, TestPlan.constructorArgs, TestPlan.constructorArgs]
  cases plan.receiver with
  | none => rfl
  | some receiver =>
    obtain ⟨holder, constructor⟩ := receiver
    cases constructor <;> rfl

/-- No named parameter of the constructor shares its name with one of the target. -/
theorem name_notMem_target {param : Field} (member : param ∈ plan.separated.constructorArgs)
    (named : param.isNamed = true) : param.name ∉ plan.target.args.map Field.name := by
  rw [constructorArgs_separated] at member
  obtain ⟨arg, held, rfl⟩ := List.mem_map.mp member
  rw [isNamed_marked] at named
  have filled : arg.name ≠ "" := by simpa [Field.isNamed] using named
  rw [marked_name, if_neg filled]
  have clear := (isFirstClear_clashMark (plan.target.args.map Field.name)
    (plan.constructorArgs.map Field.name)).clear
  exact isClear_iff.mp clear arg.name (List.mem_map_of_mem held) filled

/-- Parameters have different names when those of each function have. -/
theorem nodup_params_iff : (plan.separated.params.map Field.name).Nodup ↔
    ((plan.separated.constructorArgs.filter Field.isNamed).map Field.name).Nodup ∧
      ((plan.separated.target.args.filter Field.isNamed).map Field.name).Nodup := by
  rw [TestPlan.params, List.map_append, List.nodup_append']
  refine and_congr_right fun _ => and_iff_left_iff_imp.mpr fun _ => ?_
  intro name made used
  obtain ⟨param, held, rfl⟩ := List.mem_map.mp made
  obtain ⟨held, named⟩ := List.mem_filter.mp held
  obtain ⟨other, taken, same⟩ := List.mem_map.mp used
  exact name_notMem_target plan held named
    (same ▸ List.mem_map_of_mem (List.mem_filter.mp taken).1)

/-- Nothing but the parameters of the constructor changes. -/
theorem separated_eq {holder : Field} {constructor : Callee}
    (made : plan.receiver = some ⟨holder, some constructor⟩) :
    plan.separated = { plan with receiver := some ⟨holder, some { constructor with
      args := constructor.args.map (Field.marked plan.mark) }⟩ } := by
  rw [TestPlan.separated, TestPlan.mark, TestPlan.constructorArgs, made]
  rfl

/-- A plan whose parameters have been named apart is left as it is. -/
theorem separated_separated : plan.separated.separated = plan.separated := by
  -- The names of the constructor's parameters are not taken any more.
  have unmarked : plan.separated.mark = "" := by
    apply clashMark_eq_empty
    intro name member filled
    obtain ⟨param, held, rfl⟩ := List.mem_map.mp member
    exact name_notMem_target plan held (by simpa [Field.isNamed] using filled)
  generalize plan.separated = apart at unmarked ⊢
  obtain ⟨testing, package, testName, target, receiver⟩ := apart
  rcases receiver with _ | ⟨holder, _ | constructor⟩
  · rfl
  · rfl
  · -- The mark that would be set is no mark.
    have unchanged : constructor.args.map (Field.marked "") = constructor.args :=
      (List.map_congr_left fun arg _ => marked_empty arg).trans constructor.args.map_id'
    rw [separated_eq _ rfl, unmarked, unchanged]

end Separated

/--
The parameters of a constructor are named apart from those of the function it is made for.

They get the first mark that is clear for all of them, and nothing else in the plan changes.
-/
theorem separated_marks {plan : TestPlan} {holder : Field} {constructor : Callee}
    (made : plan.receiver = some ⟨holder, some constructor⟩) :
    ∃ mark, IsFirstClear (plan.target.args.map Field.name) (constructor.args.map Field.name) mark ∧
      plan.separated = { plan with receiver := some ⟨holder, some { constructor with
        args := constructor.args.map (Field.marked mark) }⟩ } ∧
      (∀ arg ∈ constructor.args, (arg.marked mark).isNamed = true →
        ∀ other ∈ plan.target.args, (arg.marked mark).name ≠ other.name) ∧
      (∀ first ∈ constructor.args, ∀ second ∈ constructor.args,
        (first.marked mark).name = (second.marked mark).name ↔ first.name = second.name) ∧
      plan.separated.separated = plan.separated := by
  have args : plan.constructorArgs = constructor.args := by
    rw [TestPlan.constructorArgs, made]
    rfl
  refine ⟨plan.mark, ?_, separated_eq plan made, ?_, fun first _ second _ => marked_name_inj,
    separated_separated plan⟩
  · rw [TestPlan.mark, args]
    exact isFirstClear_clashMark _ _
  · intro arg held named other taken same
    have member : arg.marked plan.mark ∈ plan.separated.constructorArgs := by
      rw [constructorArgs_separated, args]
      exact List.mem_map_of_mem held
    exact name_notMem_target plan member named (same ▸ List.mem_map_of_mem taken)

/-- A plan in which every mark of the list makes a name that is taken. -/
def takenMarks : TestPlan where
  testing := "testing"
  package := "p"
  testName := "TestSet_Add"
  target := ⟨"Add", clashMarks.map fun mark => .named (mark ++ "size") "int", []⟩
  receiver := some ⟨.named "s" "p.Set",
    some ⟨"NewSet", [.named "size" "int", .valued "context.Context" "ctx"], [.named "s" "p.Set"]⟩⟩

/-- The first number is the mark when the list has none. -/
theorem separated_marks_takenMarks :
    (takenMarks.receiver.bind Receiver.constructor).isSome ∧
      takenMarks.separated.constructorArgs.map Field.name = ["c2size", ""] ∧
      takenMarks.separated.separated = takenMarks.separated := by
  have made : takenMarks.receiver = some ⟨.named "s" "p.Set", some ⟨"NewSet",
    [.named "size" "int", .valued "context.Context" "ctx"], [.named "s" "p.Set"]⟩⟩ := rfl
  obtain ⟨-, -, -, -, -, again⟩ := separated_marks made
  exact ⟨rfl, by decide, again⟩

end Scaffold
