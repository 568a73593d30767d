import Scaffold.Proofs.Test.Results
import Scaffold.Proofs.Test.Separated

/-! The fields of a test case: which are declared, and when no two share a name. -/

namespace Scaffold

open Go

/-- What is expected of a result. -/
def expectedField (index : Nat) (result : Field) : Field :=
  if result.name == "gotErr" then .named "wantErr" "bool"
  else .named (wantName index) result.type

/-- What is expected of the results. -/
def TestPlan.expectedFields (plan : TestPlan) : List Field :=
  (indexed plan.target.results).map fun (index, result) => expectedField index result

/-- The name of a test case, with the comment behind it. -/
def caseName : Field :=
  .named "name" "string // description of this test case"

/-- All fields of a test case: its name, the parameters, and what is expected of the results. -/
def TestPlan.tableFields (plan : TestPlan) : List Field :=
  caseName :: plan.params ++ plan.expectedFields

/-- The names of the fields that are there whatever the parameters are called. -/
def TestPlan.fixedNames (plan : TestPlan) : List String :=
  caseName.name :: plan.expectedFields.map Field.name

/-- The comments above the parameters. -/
def headings : List String :=
  ["// Named input parameters for receiver constructor.",
    "// Named input parameters for target function."]

/-- The type of the table declares the fields of a test case, and has at most comments besides. -/
theorem tableType_perm (plan : TestPlan) : ∃ comments : List Line,
    (∀ comment ∈ comments, comment.text ∈ headings) ∧
    (line "name string // description of this test case" ++ plan.fieldLines).Perm
      (comments ++ plan.tableFields.flatMap fun field => line field.declaration) := by
  have declared : ∀ (heading : String) (args : List Field), ∃ comments : List Line,
      (∀ comment ∈ comments, comment.text = heading) ∧ paramLines heading args =
        comments ++ (args.filter Field.isNamed).flatMap fun field => line field.declaration := by
    intro heading args
    rw [paramLines]
    split
    · rename_i none
      exact ⟨[], by simp, by rw [none]; rfl⟩
    · exact ⟨line heading, by simp [line], rfl⟩
  have wants : wantLines plan.target.results =
      plan.expectedFields.flatMap fun field => line field.declaration := by
    rw [wantLines, TestPlan.expectedFields, List.flatMap_map]
    refine List.flatMap_congr fun entry _ => ?_
    obtain ⟨index, result⟩ := entry
    dsimp only [expectedField]
    split <;> rfl
  obtain ⟨one, ofOne, first⟩ := declared "// Named input parameters for receiver constructor."
    plan.constructorArgs
  obtain ⟨other, ofOther, second⟩ := declared "// Named input parameters for target function."
    plan.target.args
  refine ⟨one ++ other, ?_, ?_⟩
  · intro comment member
    rcases List.mem_append.mp member with member | member
    · simp [headings, ofOne comment member]
    · simp [headings, ofOther comment member]
  · have name : line "name string // description of this test case" =
        line caseName.declaration := rfl
    rw [name, TestPlan.fieldLines, first, second, wants, TestPlan.tableFields, TestPlan.params,
      List.cons_append, List.flatMap_cons, List.flatMap_append, List.flatMap_append]
    rw [List.perm_iff_count]
    intro shown
    simp only [List.count_append]
    omega

section Named

variable {plan : TestPlan} {written : ResolvedType → String} {results : List Var}
  (given : plan.target.results = namedResults written results)

include given

/-- What is expected is named after the kind and the number of the result. -/
theorem getElem?_expectedNames (index : Nat) :
    (plan.expectedFields.map Field.name)[index]? = results[index]?.map fun result =>
      if index + 1 = results.length ∧ result.type.isError = true then "wantErr"
      else wantName index := by
  rw [TestPlan.expectedFields, List.getElem?_map, List.getElem?_map, getElem?_indexed, given,
    namedResults, List.getElem?_mapIdx]
  cases results[index]? with
  | none => rfl
  | some result =>
    simp only [Option.map_some, expectedField, Field.named, beq_iff_eq, gotName_eq_gotErr_iff]
    congr 1
    split <;> rfl

/-- What is expected of two results has two names. -/
theorem nodup_expectedNames : (plan.expectedFields.map Field.name).Nodup := by
  rw [List.nodup_iff_getElem?_ne_getElem?]
  intro first second before within same
  rw [getElem?_expectedNames given, getElem?_expectedNames given] at same
  have length : plan.expectedFields.length = results.length := by
    simp [TestPlan.expectedFields, indexed, given, namedResults]
  rw [List.length_map, length] at within
  rw [List.getElem?_eq_getElem within, List.getElem?_eq_getElem (before.trans within)] at same
  simp only [Option.map_some, Option.some.injEq] at same
  split at same <;> split at same
  · omega
  · exact numberedName_ne_err same.symm
  · exact numberedName_ne_err same
  · have := numberedName_inj same
    omega

/-- The names that are there in any case are different. -/
theorem nodup_fixedNames : plan.fixedNames.Nodup := by
  rw [TestPlan.fixedNames, List.nodup_cons]
  refine ⟨fun member => ?_, nodup_expectedNames given⟩
  obtain ⟨index, held⟩ := List.mem_iff_getElem?.mp member
  rw [getElem?_expectedNames given] at held
  obtain ⟨result, -, same⟩ := Option.map_eq_some_iff.mp held
  split at same
  · exact absurd same (by decide)
  · exact ne_of_char (numberedName_char (c := 'w') index rfl)
      (rfl : caseName.name.toList[0]? = some 'n') (by decide) same

end Named

/--
No two fields of a planned test case share a name under three conditions.

The parameters of each function have different names, and no parameter has a fixed name.
-/
theorem nodup_tableFields_iff {subject : Subject} {site : TestSite} {function : Function}
    {plan : TestPlan} {imports : List Import}
    (planned : planTest subject site function = .ok (plan, imports)) :
    (plan.tableFields.map Field.name).Nodup ↔
      ((plan.constructorArgs.filter Field.isNamed).map Field.name).Nodup ∧
      ((plan.target.args.filter Field.isNamed).map Field.name).Nodup ∧
      ∀ param ∈ plan.params, param.name ∉ plan.fixedNames := by
  obtain ⟨draft, extra, drafted, rfl, -⟩ := planTest_eq_ok planned
  have fixed := nodup_fixedNames (results_of_planned drafted)
  rw [PlanDraft.written_separated] at fixed ⊢
  generalize draft.written _ = plan at fixed ⊢
  rw [← and_assoc, ← nodup_params_iff]
  -- The name of the test case stands in front of the parameters, the expectations behind them.
  have order : (plan.separated.tableFields.map Field.name).Perm
      (plan.separated.params.map Field.name ++ plan.separated.fixedNames) := by
    rw [TestPlan.tableFields, List.cons_append, List.map_cons, List.map_append]
    exact List.perm_middle.symm
  rw [order.nodup_iff, List.nodup_append']
  constructor
  · rintro ⟨params, -, apart⟩
    exact ⟨params, fun param member fixed => apart (List.mem_map_of_mem member) fixed⟩
  · rintro ⟨params, apart⟩
    refine ⟨params, fixed, fun name used fixed => ?_⟩
    obtain ⟨param, member, rfl⟩ := List.mem_map.mp used
    exact apart param member fixed

/-- A function with one parameter that a test case has a field for, and nothing else. -/
def Go.Function.takesOnly (function : Function) (name : String) : Bool :=
  function.receiver.isNone && function.signature.results.isEmpty &&
    match function.signature.params with
    | [param] => !param.type.isContext && param.name == name && name != "" && name != "_"
    | _ => false

/-- Such a function gives the test case one field besides its name. -/
theorem fields_of_takesOnly {subject : Subject} {site : TestSite} {function : Function}
    {plan : TestPlan} {imports : List Import} {name : String}
    (planned : planTest subject site function = .ok (plan, imports))
    (takes : function.takesOnly name = true) :
    plan.constructorArgs = [] ∧ (plan.target.args.filter Field.isNamed).map Field.name = [name] ∧
      plan.params.map Field.name = [name] ∧ plan.fixedNames = ["name"] := by
  obtain ⟨draft, extra, drafted, rfl, -⟩ := planTest_eq_ok planned
  have results := results_of_planned drafted
  obtain ⟨title, choice, -, chosen, rfl⟩ := drafted.drafted
  obtain ⟨called, owner, receiver, ⟨params, outcome, variadic⟩, file, start⟩ := function
  simp only [Go.Function.takesOnly, Bool.and_eq_true, Option.isNone_iff_eq_none,
    List.isEmpty_iff] at takes
  obtain ⟨⟨rfl, rfl⟩, one⟩ := takes
  cases chosen
  split at one
  · rename_i param
    simp only [Bool.and_eq_true, Bool.not_eq_true', beq_iff_eq, bne_iff_ne] at one
    obtain ⟨⟨⟨ordinary, rfl⟩, filled⟩, blank⟩ := one
    have draft : paramDraft true param = ⟨param.name, typeSnippets param.type, [], false⟩ := by
      rw [paramDraft, ordinary, if_neg (by simp), if_neg (by simp [filled, blank])]
    have args : paramDrafts ⟨[param], [], variadic⟩ =
        [⟨param.name, typeSnippets param.type, [], variadic && true⟩] := by
      rw [paramDrafts, paramDraftsFrom, paramDraftsFrom]
      exact congrArg (fun field => [{ field with variadic := variadic && true }]) draft
    generalize whole : PlanDraft.written _ _ = plan at results ⊢
    have constructor : plan.constructorArgs = [] := whole ▸ rfl
    have target : (plan.target.args.filter Field.isNamed).map Field.name = [param.name] := by
      rw [← whole]
      change (((paramDrafts ⟨[param], [], variadic⟩).map (FieldDraft.written _)).filter
        Field.isNamed).map Field.name = [param.name]
      rw [args, List.map_singleton, List.filter_cons_of_pos (by simp [Field.isNamed,
        FieldDraft.written, filled])]
      rfl
    refine ⟨constructor, target, ?_, ?_⟩
    · rw [TestPlan.params, List.map_append, target, constructor]
      rfl
    · rw [TestPlan.fixedNames, TestPlan.expectedFields, results]
      rfl
  · cases one

/-- A module with a function whose parameter is named like the name of a test case. -/
def nameFunctions : FileTree :=
  ⟨[(⟨"go.mod"⟩, "module m"), (⟨"p.go"⟩,
    "package p\nfunc F(name string) {}\nfunc G(size int) {}")]⟩

theorem nodup_tableFields_size : ∃ found,
    plannedAt nameFunctions ⟨⟨"p.go"⟩, .point ⟨2, 6⟩⟩ = .ok found ∧
    (found.plan.tableFields.map Field.name).Nodup := by
  obtain ⟨found, located, checked⟩ := exists_plannedAt nameFunctions ⟨⟨"p.go"⟩, .point ⟨2, 6⟩⟩
    (fun found => found.function.takesOnly "size")
    (by decide +kernel)
  have planned := planTest_of_plannedAt located
  obtain ⟨none, one, params, fixed⟩ := fields_of_takesOnly planned checked
  refine ⟨found, located, (nodup_tableFields_iff planned).mpr ⟨by simp [none], by simp [one], ?_⟩⟩
  intro param member
  have name : param.name ∈ ["size"] := params ▸ List.mem_map_of_mem member
  rw [fixed, List.mem_singleton.mp name]
  decide

/-- A parameter with the name of the test case's name is declared again. -/
theorem not_nodup_tableFields_name : ∃ found,
    plannedAt nameFunctions ⟨⟨"p.go"⟩, .point ⟨1, 6⟩⟩ = .ok found ∧
    ¬(found.plan.tableFields.map Field.name).Nodup := by
  obtain ⟨found, located, checked⟩ := exists_plannedAt nameFunctions ⟨⟨"p.go"⟩, .point ⟨1, 6⟩⟩
    (fun found => found.function.takesOnly "name")
    (by decide +kernel)
  obtain ⟨-, -, params, -⟩ := fields_of_takesOnly (planTest_of_plannedAt located) checked
  refine ⟨found, located, fun different => ?_⟩
  rw [TestPlan.tableFields, List.cons_append, List.map_cons, List.map_append, params] at different
  exact (List.nodup_cons.mp different).1 (by simp [caseName, Field.named])

end Scaffold
