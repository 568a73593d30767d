import Scaffold.Proofs.Test.Fitting
import Scaffold.Proofs.Test.SelfContained

/-! Tests keep their blocks: what opens them, closes them, and how deep the lines in them stand. -/

namespace Scaffold

section Entries

/-- The receiver is made, or left to the reader. -/
def receiverEntries (package : String) (receiver : Receiver) : List Entry :=
  match receiver.constructor with
  | some constructor =>
    [.line (resultNames constructor.results ++ " := " ++ qualifierText package ++ constructor.name
        ++ "(" ++ callArgs constructor.args ++ ")")]
      ++ if constructor.endsInError then
        [.opening "if err != nil \x7b",
          .line "t.Fatalf(\"could not construct receiver type: %v\", err)",
          .closing "\x7d"]
      else []
  | none =>
    [.line "// TODO: construct the receiver type.",
      .line ("var " ++ receiver.holder.name ++ " " ++ receiver.holder.type)]

/-- The error is compared with what is expected. -/
def errorEntries (target : Callee) : List Entry :=
  if target.endsInError then
    [.opening "if gotErr != nil \x7b",
      .opening "if !tt.wantErr \x7b",
      .line ("t.Errorf(\"" ++ target.name ++ "() failed: %v\", gotErr)"),
      .closing "\x7d",
      .line "return",
      .closing "\x7d",
      .opening "if tt.wantErr \x7b",
      .line ("t.Fatal(\"" ++ target.name ++ "() succeeded unexpectedly\")"),
      .closing "\x7d"]
  else []

/-- One result is compared with what is expected. -/
def compareEntries (target : Callee) (index : Nat) (result : Field) : List Entry :=
  if result.name == "gotErr" then []
  else
    [.opening "if true \x7b",
      .line ("t.Errorf(\"" ++ target.name ++ "() = %v, want %v\", " ++ result.name ++ ", tt."
        ++ wantName index ++ ")"),
      .closing "\x7d"]

/-- The results are compared, unless there is nothing but an error. -/
def comparisonEntries (target : Callee) : List Entry :=
  let errors := if target.endsInError then 1 else 0
  if target.results.length - errors = 0 then []
  else [.line "// TODO: update the condition below to compare got with tt.want."]
    ++ (indexed target.results).flatMap fun (index, result) => compareEntries target index result

/-- The table of test cases, whose second block begins on the line that closes the first. -/
def tableEntries (plan : TestPlan) : List Entry :=
  .opening "tests := []struct \x7b"
    :: .line "name string // description of this test case"
    :: plan.fieldLines.map (fun shown => .line shown.text)
    ++ [.closing "\x7d\x7b", .deepen, .line "// TODO: Add test cases.", .closing "\x7d"]

/-- What is run for each test case. -/
def caseEntries (plan : TestPlan) : List Entry :=
  (match plan.receiver with
    | some receiver => receiverEntries plan.package receiver
    | none => [])
    ++ (callLine plan).map (fun shown => .line shown.text) ++ errorEntries plan.target
    ++ comparisonEntries plan.target

/-- A test, written from its first line to its last. -/
def TestPlan.entries (plan : TestPlan) : List Entry :=
  [.line "", .opening ("func " ++ plan.testName ++ "(t *" ++ plan.testing ++ ".T) \x7b")]
    ++ tableEntries plan
    ++ [.opening "for _, tt := range tests \x7b",
      .opening ("t.Run(tt.name, func(t *" ++ plan.testing ++ ".T) \x7b")]
    ++ caseEntries plan
    ++ [.closing "\x7d)", .closing "\x7d", .closing "\x7d"]

end Entries

section Laid

theorem lays_receiverEntries (package : String) (receiver : Receiver) :
    Lays (receiverEntries package receiver) (receiverLines package receiver) := by
  rw [receiverEntries, receiverLines]
  cases receiver.constructor with
  | none => exact (Lays.single _).append (.single _)
  | some constructor => exact (Lays.single _).append (.optional _ (.block _ (.single _) _))

theorem lays_errorEntries (target : Callee) :
    Lays (errorEntries target) (errorLines target) := by
  rw [errorEntries, errorLines]
  -- What is wanted is asked for inside the first block, and once more behind it.
  have asked := Lays.block "if !tt.wantErr \x7b"
    (.single ("t.Errorf(\"" ++ target.name ++ "() failed: %v\", gotErr)")) "\x7d"
  have failed := Lays.block "if gotErr != nil \x7b" (asked.append (.single "return")) "\x7d"
  exact .optional _ (failed.append (.block _ (.single _) _))

theorem lays_comparisonEntries (target : Callee) :
    Lays (comparisonEntries target) (comparisonLines target) := by
  rw [comparisonEntries, comparisonLines]
  apply Lays.omitted
  apply (Lays.single _).append
  apply Lays.flatMap
  intro entry _
  exact .omitted _ (.block _ (.single _) _)

theorem lays_tableEntries (plan : TestPlan) : Lays (tableEntries plan) (tableLines plan) := by
  have declares : Lays (plan.fieldLines.map fun shown => .line shown.text) plan.fieldLines :=
    .flat fun _ => depth_fieldLines
  have fields := (Lays.single "name string // description of this test case").append declares
  have declared := Lays.block "tests := []struct \x7b" fields "\x7d\x7b"
  -- No line opens the block of the test cases.
  have rows := (Lays.single "// TODO: Add test cases.").deepened "\x7d"
  have table := declared.append rows
  rw [tableLines_eq, tableEntries]
  rw [block, List.append_assoc, List.append_assoc] at table
  rw [block, List.append_assoc, List.append_assoc]
  simpa using table

theorem lays_caseEntries (plan : TestPlan) : Lays (caseEntries plan) (caseLines plan) := by
  have called : Lays ((callLine plan).map fun shown => .line shown.text) (callLine plan) := by
    apply Lays.flat
    intro shown member
    rw [callLine] at member
    split at member <;> split at member <;> rw [List.mem_singleton.mp member]
  rw [caseEntries, caseLines]
  refine ((Lays.append ?_ called).append (lays_errorEntries _)).append (lays_comparisonEntries _)
  cases plan.receiver with
  | none => exact .nil
  | some receiver => exact lays_receiverEntries _ _

/-- A test is written line by line as its blocks are nested. -/
theorem lays_entries (plan : TestPlan) : Lays plan.entries plan.lines := by
  have run := Lays.block ("t.Run(tt.name, func(t *" ++ plan.testing ++ ".T) \x7b")
    (lays_caseEntries plan) "\x7d)"
  have loop := Lays.block "for _, tt := range tests \x7b" run "\x7d"
  have all := (Lays.single "").append
    (.block ("func " ++ plan.testName ++ "(t *" ++ plan.testing ++ ".T) \x7b")
      ((lays_tableEntries plan).append loop) "\x7d")
  rw [TestPlan.entries, TestPlan.lines]
  simpa using all

end Laid

section Kept

variable {plan : TestPlan}

/-- Where no brackets are looked at, any strings will do. -/
theorem fits_of_fitsLine {text : String} (fits : FitsLine text) :
    Fits ⟨false, false⟩ [] [] text :=
  ⟨fits, missingBehind_of_free (fun _ _ => rfl) _⟩

/--
The test of a plan that passes the check keeps its blocks, if no string of the plan breaks its line
or looks like indentation.

Whichever brackets are looked at, those of the test are balanced if those of the strings are.
-/
theorem keepsBlocks_of_check (checked : plan.check = .ok ())
    (plain : ∀ text ∈ plan.strings, FitsLine text) :
    ∃ test, plan.render = .ok test ∧ KeepsBlocks plan.entries test ∧
      ∀ kinds, (∀ text ∈ plan.strings, IsBalanced kinds text.toList) →
        IsBalanced kinds test.toList := by
  have rendered : plan.render = .ok (renderLines plan.lines) := by
    rw [TestPlan.render, checked]
    rfl
  have lines : FitLines ⟨false, false⟩ [] [] plan.lines :=
    fitLines_lines (planFits_of_strings fun text member => fits_of_fitsLine (plain text member))
  refine ⟨_, rendered, (lays_entries plan).keepsBlocks lines.each, fun kinds balanced => ?_⟩
  have paired : FitLines kinds [] [] plan.lines :=
    fitLines_lines (planFits_of_strings fun text member =>
      ⟨plain text member, balanced text member⟩)
  exact paired.turns

/-- A test of a method keeps its blocks, with a constructor, errors and a call among its strings. -/
theorem keepsBlocks_methodPlan : methodPlan.check = .ok () ∧
    (∀ text ∈ methodPlan.strings, FitsLine text) ∧
    (∀ text ∈ methodPlan.strings, IsBalanced .all text.toList) ∧
    ∃ test, methodPlan.render = .ok test ∧ KeepsBlocks methodPlan.entries test ∧
      IsBalanced .all test.toList := by
  have checked : methodPlan.check = .ok () := by decide
  have plain : ∀ text ∈ methodPlan.strings, FitsLine text := by decide
  have balanced : ∀ text ∈ methodPlan.strings, IsBalanced .all text.toList := by decide
  obtain ⟨test, rendered, keeps, paired⟩ := keepsBlocks_of_check checked plain
  exact ⟨checked, plain, balanced, test, rendered, keeps, paired .all balanced⟩

end Kept

end Scaffold
