import Scaffold.Proofs.Test.Script

/-! Qualifiers that a test prints where a variable of the same name is known. -/

namespace Scaffold

open Go

/-- What the plan gives for a stretch of a line. -/
@[simp] def Word.snippet? : Word → Option Snippet
  | .given snippet => some snippet
  | _ => none

/-- What the plan gives for a line. -/
def snippetsIn (words : List Word) : List Snippet :=
  words.filterMap Word.snippet?

section Snippets

@[simp] theorem snippetsIn_nil : snippetsIn [] = [] :=
  rfl

@[simp] theorem snippetsIn_append (first second : List Word) :
    snippetsIn (first ++ second) = snippetsIn first ++ snippetsIn second :=
  List.filterMap_append

@[simp] theorem snippetsIn_cons (word : Word) (rest : List Word) :
    snippetsIn (word :: rest) = word.snippet?.toList ++ snippetsIn rest := by
  cases word <;> rfl

@[simp] theorem snippetsIn_givens (snippets : List Snippet) :
    snippetsIn (givens snippets) = snippets := by
  rw [snippetsIn, givens, List.filterMap_map]
  exact List.filterMap_some

/-- Between the items of a list there are only commas. -/
@[simp] theorem snippetsIn_listed (items : List (List Word)) :
    snippetsIn (listed items) = items.flatMap snippetsIn := by
  induction items with
  | nil => rfl
  | cons item rest ih =>
    rw [List.flatMap_cons, ← ih]
    cases rest <;> simp

@[simp] theorem snippetsIn_bindings (names : List String) : snippetsIn (bindings names) = [] := by
  simp [bindings, List.flatMap_map]

@[simp] theorem snippetsIn_passed (draft : FieldDraft) :
    snippetsIn draft.passed = if draft.isNamed then [] else draft.value := by
  rw [FieldDraft.passed]
  split <;> split <;> simp

@[simp] theorem snippetsIn_fieldWords (name : String) (type : List Word) :
    snippetsIn (fieldWords name type) = snippetsIn type := by
  simp [fieldWords]

end Snippets

/-- The qualifiers that are printed in some stretches of a test. -/
def printed (qualifier : PackageRef → String) (snippets : List Snippet) : List String :=
  ((packagesIn snippets).map qualifier).filter fun name => !name.isEmpty

/-- No name is the qualifier of a package in some stretches of a test. -/
def Avoids (qualifier : PackageRef → String) (names : List String) (snippets : List Snippet) :
    Prop :=
  ∀ name ∈ printed qualifier snippets, name ∉ names

/-- No qualifier that a line prints is the name of a variable that is known on the line. -/
def PrintsApart (qualifier : PackageRef → String) (known : List String) (words : List Word) :
    Prop :=
  Avoids qualifier known (snippetsIn words)

/-- No qualifier that a test prints is shadowed by a variable of the test. -/
def Script.IsUnshadowed (qualifier : PackageRef → String) (script : Script) : Prop :=
  script.Throughout (PrintsApart qualifier) []

section Apart

variable {qualifier : PackageRef → String} {names : List String}

@[simp] theorem printsApart_iff {words : List Word} :
    PrintsApart qualifier names words ↔ Avoids qualifier names (snippetsIn words) :=
  Iff.rfl

@[simp] theorem avoids_nil : Avoids qualifier names [] := by
  simp [Avoids, printed, packagesIn]

@[simp] theorem avoids_none (snippets : List Snippet) : Avoids qualifier [] snippets := by
  simp [Avoids]

@[simp] theorem avoids_text (fixed : String) (snippets : List Snippet) :
    Avoids qualifier names (.text fixed :: snippets) ↔ Avoids qualifier names snippets :=
  Iff.rfl

@[simp] theorem avoids_append (first second : List Snippet) :
    Avoids qualifier names (first ++ second) ↔
      Avoids qualifier names first ∧ Avoids qualifier names second := by
  simp only [Avoids, printed, packagesIn, List.filterMap_append, List.map_append,
    List.filter_append, List.forall_mem_append]

theorem avoids_cons (first : Snippet) (rest : List Snippet) :
    Avoids qualifier names (first :: rest) ↔
      Avoids qualifier names [first] ∧ Avoids qualifier names rest :=
  avoids_append [first] rest

@[simp] theorem avoids_flatMap {α : Type} (xs : List α) (part : α → List Snippet) :
    Avoids qualifier names (xs.flatMap part) ↔ ∀ x ∈ xs, Avoids qualifier names (part x) := by
  induction xs with
  | nil => simp
  | cons x rest ih => rw [List.flatMap_cons, avoids_append, ih, List.forall_mem_cons]

/-- Names in two lists are apart from what is printed if those of each list are. -/
@[simp] theorem avoids_names (others : List String) (snippets : List Snippet) :
    Avoids qualifier (names ++ others) snippets ↔
      Avoids qualifier names snippets ∧ Avoids qualifier others snippets := by
  simp only [Avoids, List.mem_append, not_or, forall_and]

end Apart

/-- The types of the fields of a test case. -/
def PlanDraft.fieldTypes (draft : PlanDraft) : List Snippet :=
  (draft.constructorArgs.filter FieldDraft.isNamed).flatMap FieldDraft.type
    ++ (draft.target.args.filter FieldDraft.isNamed).flatMap FieldDraft.type
    ++ draft.target.results.flatMap FieldDraft.shownResult

/-- The values that are passed for parameters without a field. -/
def CalleeDraft.values (draft : CalleeDraft) : List Snippet :=
  draft.args.flatMap fun arg => if arg.isNamed then [] else arg.value

/-- What is printed to make the receiver: the call of its constructor, or its type. -/
def PlanDraft.making (draft : PlanDraft) : List Snippet :=
  match draft.receiver with
  | some ⟨_, some constructor⟩ => .name draft.subject constructor.name :: constructor.values
  | some ⟨holder, none⟩ => holder.type
  | none => []

/-- What is printed to call the tested function; a method is called on the receiver's variable. -/
def PlanDraft.calling (draft : PlanDraft) : List Snippet :=
  match draft.receiver with
  | some _ => draft.target.values
  | none => .name draft.subject draft.target.name :: draft.target.values

section Places

open Script

variable {qualifier : PackageRef → String} {known : List String}

theorem snippetsIn_call (owner : List Word) (draft : CalleeDraft) :
    snippetsIn (draft.call owner) = snippetsIn owner ++ draft.values := by
  simp [CalleeDraft.call, callWords, CalleeDraft.values, List.flatMap_map]

theorem printsApart_paramScript (heading : String) (args : List FieldDraft) :
    (paramScript heading args).Throughout (PrintsApart qualifier) known ↔
      Avoids qualifier known ((args.filter FieldDraft.isNamed).flatMap FieldDraft.type) := by
  rw [paramScript]
  split
  · rename_i none
    simp [none]
  · rw [throughout_append, throughout_forEach fun _ => rfl]
    simp

theorem printsApart_wantScript (results : List FieldDraft) :
    (wantScript results).Throughout (PrintsApart qualifier) known ↔
      Avoids qualifier known (results.flatMap FieldDraft.shownResult) := by
  have expected : ∀ index (result : FieldDraft),
      snippetsIn (expectedWords index result) = result.shownResult := by
    intro index result
    rw [expectedWords, FieldDraft.shownResult]
    split <;> simp
  rw [wantScript, throughout_forEach fun _ => rfl]
  simp only [throughout_said, printsApart_iff, expected, avoids_flatMap]
  exact forall_mem_indexed results fun result => Avoids qualifier known result.shownResult

theorem printsApart_tableScript (draft : PlanDraft) :
    draft.tableScript.Throughout (PrintsApart qualifier) known ↔
      Avoids qualifier known draft.fieldTypes := by
  simp [PlanDraft.tableScript, PlanDraft.fieldScript, PlanDraft.fieldTypes,
    printsApart_paramScript, printsApart_wantScript, and_assoc, -avoids_flatMap]

theorem printsApart_receiverScript (draft : PlanDraft) :
    (draft.receiverScript qualifier).Throughout (PrintsApart qualifier) known ↔
      Avoids qualifier known draft.making := by
  obtain ⟨subject, testName, target, receiver⟩ := draft
  rcases receiver with _ | ⟨holder, _ | constructor⟩
  · simp [PlanDraft.receiverScript, PlanDraft.making]
  · simp [PlanDraft.receiverScript, ReceiverDraft.script, PlanDraft.making]
  · dsimp only [PlanDraft.receiverScript, ReceiverDraft.script, PlanDraft.making]
    rw [throughout_say, printsApart_iff, snippetsIn_append, snippetsIn_bindings, snippetsIn_cons,
      snippetsIn_call]
    split <;> simp

theorem printsApart_callScript (draft : PlanDraft) :
    draft.callScript.Throughout (PrintsApart qualifier) known ↔
      Avoids qualifier known draft.calling := by
  have called : Avoids qualifier known (snippetsIn (draft.target.call draft.owner)) ↔
      Avoids qualifier known draft.calling := by
    rw [snippetsIn_call, PlanDraft.owner, PlanDraft.calling]
    -- The name of a method is printed behind a variable, and has no qualifier.
    cases draft.receiver <;> exact Iff.rfl
  rw [PlanDraft.callScript]
  split
  · rw [throughout_said, printsApart_iff, called]
  · simp [called]

theorem printsApart_errorScript (target : CalleeDraft) :
    (errorScript qualifier target).Throughout (PrintsApart qualifier) known := by
  rw [errorScript]
  split <;> simp

theorem printsApart_comparisonScript (target : CalleeDraft) :
    (comparisonScript qualifier target).Throughout (PrintsApart qualifier) known := by
  rcases comparisonScript_cases qualifier target with same | same <;> rw [same]
  · exact throughout_done
  · rw [throughout_append, throughout_forEach fun entry => bound_compareScript _ _ _]
    refine ⟨by simp, fun entry _ => ?_⟩
    rw [compareScript]
    split <;> simp [comparisonWords]

/-- Behind the variables for the receiver only the call prints qualifiers. -/
theorem printsApart_caseScript (draft : PlanDraft) :
    (draft.caseScript qualifier).Throughout (PrintsApart qualifier) known ↔
      Avoids qualifier known draft.making ∧ Avoids qualifier known draft.calling ∧
        Avoids qualifier draft.receiverNames draft.calling := by
  rw [PlanDraft.caseScript, throughout_append, throughout_append, throughout_append,
    printsApart_receiverScript, printsApart_callScript, bound_receiverScript, avoids_names]
  exact ⟨fun all => all.1.1, fun call =>
    ⟨⟨call, printsApart_errorScript _⟩, printsApart_comparisonScript _⟩⟩

/--
No qualifier is shadowed in a test exactly if those of each part are apart from what is known there.

The types of the fields stand where the parameter of the test is known. The body of a test case
stands where the table and the case are known too. A call of the tested function stands behind the
variables for the receiver. Nothing is printed behind the names for the results.
-/
theorem isUnshadowed_script_iff (draft : PlanDraft) :
    (draft.script qualifier).IsUnshadowed qualifier ↔
      Avoids qualifier ["t"] draft.fieldTypes ∧
      Avoids qualifier ["t", "tests", "tt"]
        (.member .testing "T" :: draft.making ++ draft.calling) ∧
      Avoids qualifier draft.receiverNames draft.calling := by
  have table : draft.tableScript.bound = ["tests"] := rfl
  have parameter : snippetsIn testParameter = [.member .testing "T"] := rfl
  have body : ["t", "tests", "tt"] = ["t"] ++ ["tests"] ++ ["tt"] := rfl
  rw [IsUnshadowed, PlanDraft.script, throughout_append, throughout_said, throughout_blockOf,
    throughout_append, printsApart_tableScript, table, throughout_blockOf, throughout_blockOf,
    printsApart_caseScript, body, avoids_append, avoids_cons]
  simp only [printsApart_iff, snippetsIn_append, snippetsIn_cons, snippetsIn_nil, parameter,
    Word.snippet?, Option.toList_none, bound_said, List.nil_append, avoids_names, avoids_none,
    avoids_nil, true_and, and_true]
  -- The parameter of a test case has the name of the parameter around it.
  tauto

end Places

section Planned

variable {subject : Subject} {site : TestSite} {function : Function} {draft : PlanDraft}
  {extra : ImportSet}

/-- What is bound in the body of a test case is bound for the receiver, or for a result. -/
theorem boundNames_written (qualifier : PackageRef → String) (draft : PlanDraft) :
    (draft.written qualifier).boundNames =
      draft.receiverNames ++ draft.target.results.map FieldDraft.name := by
  rw [← bound_caseScript]
  simp [PlanDraft.caseScript]

/-- The receiver of a method is bound to its variable, perhaps with an error beside it. -/
theorem receiverNames_of_drafted (drafted : IsDrafted subject site function draft extra)
    {receiver : Var} (held : function.receiver = some receiver) : ∃ typeName errors,
      function.receiverTypeName? = some typeName ∧ (errors = [] ∨ errors = ["err"]) ∧
      draft.separated.receiverNames = receiverVariable receiver.name typeName :: errors := by
  obtain ⟨typeName, errors, called, one, bound⟩ := boundNames_of_drafted drafted held
  refine ⟨typeName, errors, called, one, ?_⟩
  -- The names for the results stand behind those for the receiver on both sides.
  have results : draft.separated.target.results.map FieldDraft.name =
      gotNames function.signature.results :=
    (names_written _ _).symm.trans (gotNames_of_drafted drafted)
  rw [boundNames_written, results, ← List.cons_append] at bound
  exact List.append_cancel_right bound

/-- Without a receiver nothing is bound for it. -/
theorem receiverNames_of_function (drafted : IsDrafted subject site function draft extra)
    (plain : function.receiver = none) : draft.separated.receiverNames = [] := by
  obtain ⟨title, choice, -, chosen, rfl⟩ := drafted.drafted
  rw [chooseReceiver, plain] at chosen
  cases chosen
  rfl

/-- The test of a bare function prints the qualifiers of two packages, and binds nothing more. -/
theorem parts_of_bare (drafted : IsDrafted subject site function draft extra) {called : String}
    (bare : function.isBare called = true) : draft.separated.fieldTypes = [] ∧
      draft.separated.making = [] ∧
      draft.separated.calling = [.name subject.package.ref called] ∧
      draft.separated.receiverNames = [] := by
  obtain ⟨same, alone, target, -⟩ := drafted.of_bare bare
  refine ⟨?_, ?_, ?_, ?_⟩
  · simp [PlanDraft.fieldTypes, PlanDraft.separated, PlanDraft.constructorArgs, alone, target]
  · simp [PlanDraft.making, PlanDraft.separated, alone]
  · simp [PlanDraft.calling, PlanDraft.separated, CalleeDraft.values, alone, target, same]
  · simp [PlanDraft.receiverNames, PlanDraft.separated, alone]

end Planned

/--
No qualifier in a test that is added is shadowed exactly if the qualifiers are apart from variables.

Those in the types of the fields must not be called like the parameter of the test, and those in the
body of a test case not like the parameter, the table or the case. Those in the call of the tested
function must not be called like the variable for the receiver either, or like the error beside it.
No name for a result is ever known where a qualifier is printed.
-/
theorem isUnshadowed_of_addTest {tree : FileTree} {setting : Option String} {location : Location}
    {changes : List Change} (added : addTest (tree.workspace setting) location = .ok changes) :
    ∃ found test draft extra qualifier, plannedAt tree location = .ok found ∧
      found.site.destination.changes test found.imports setting = .ok changes ∧
      IsDrafted found.subject found.site found.function draft extra ∧
      qualifier = (viewpointOf found.subject found.site).qualifiersIn extra ∧
      found.plan = draft.separated.written qualifier ∧
      test = renderLines ((draft.separated.script qualifier).lines qualifier) ∧
      (∀ receiver, found.function.receiver = some receiver → ∃ typeName errors,
        found.function.receiverTypeName? = some typeName ∧ (errors = [] ∨ errors = ["err"]) ∧
        draft.separated.receiverNames = receiverVariable receiver.name typeName :: errors) ∧
      (found.function.receiver = none → draft.separated.receiverNames = []) ∧
      ((draft.separated.script qualifier).IsUnshadowed qualifier ↔
        Avoids qualifier ["t"] draft.separated.fieldTypes ∧
        Avoids qualifier ["t", "tests", "tt"]
          (.member .testing "T" :: draft.separated.making ++ draft.separated.calling) ∧
        Avoids qualifier draft.separated.receiverNames draft.separated.calling) := by
  obtain ⟨found, test, located, rendered, made⟩ := planned_of_addTest added
  obtain ⟨draft, extra, drafted, whole, -⟩ := planTest_eq_ok (planTest_of_plannedAt located)
  refine ⟨found, test, draft, extra, _, located, made, drafted, rfl, whole, ?_,
    fun receiver => receiverNames_of_drafted drafted, receiverNames_of_function drafted,
    isUnshadowed_script_iff draft.separated⟩
  rw [lines_script, ← whole, renderLines_of_render rendered]

/-- A module with a function in a package with a common name, and one in a package called `t`. -/
def shortPackages : FileTree :=
  ⟨[(⟨"go.mod"⟩, "module m"), (⟨"p/p.go"⟩, "package p\nfunc F() \x7b\x7d"),
    (⟨"t/t.go"⟩, "package t\nfunc F() \x7b\x7d")]⟩

/-- A test of one of the functions is added, under the qualifiers that are known for it. -/
theorem exists_added_short {location : Location} {package : PackageRef} {qualifier : String}
    (apart : package.path ≠ "testing")
    (checked : (plannedAt shortPackages location).toOption.any (fun found =>
      found.subject.package.ref == package && found.function.isBare "F" &&
        found.plan.testing == "testing" && found.plan.package == qualifier) = true) :
    ∃ changes found, addTest (shortPackages.workspace none) location = .ok changes ∧
      plannedAt shortPackages location = .ok found ∧ found.subject.package.ref = package ∧
      found.function.isBare "F" = true ∧ found.plan.testing = "testing" ∧
      found.plan.package = qualifier := by
  obtain ⟨found, located, known⟩ := exists_plannedAt shortPackages location _ checked
  simp only [Bool.and_eq_true, beq_iff_eq] at known
  obtain ⟨⟨⟨ref, bare⟩, testing⟩, called⟩ := known
  obtain ⟨changes, added⟩ := exists_addTest located (ref ▸ apart) none
  exact ⟨changes, found, added, located, ref, bare, testing, called⟩

/-- In a package that is not called like a variable of the test, nothing is shadowed. -/
theorem isUnshadowed_common : ∃ changes found draft extra qualifier,
    addTest (shortPackages.workspace none) ⟨⟨"p/p.go"⟩, .point ⟨1, 6⟩⟩ = .ok changes ∧
    plannedAt shortPackages ⟨⟨"p/p.go"⟩, .point ⟨1, 6⟩⟩ = .ok found ∧
    IsDrafted found.subject found.site found.function draft extra ∧
    found.plan = draft.separated.written qualifier ∧
    (draft.separated.script qualifier).IsUnshadowed qualifier := by
  have checked : (plannedAt shortPackages ⟨⟨"p/p.go"⟩, .point ⟨1, 6⟩⟩).toOption.any (fun found =>
      found.subject.package.ref == ⟨"m/p", "p"⟩ && found.function.isBare "F" &&
        found.plan.testing == "testing" && found.plan.package == "p") = true := by decide +kernel
  obtain ⟨changes, found, added, located, ref, bare, testing, called⟩ :=
    exists_added_short (by decide) checked
  obtain ⟨found', test, draft, extra, qualifier, same, -, drafted, -, whole, -, -, -, iff⟩ :=
    isUnshadowed_of_addTest added
  obtain rfl := Except.ok.inj (same.symm.trans located)
  refine ⟨changes, _, draft, extra, qualifier, added, located, drafted, whole, iff.mpr ?_⟩
  obtain ⟨types, making, calling, names⟩ := parts_of_bare drafted bare
  have first : qualifier .testing = "testing" := by rw [← testing, whole]; rfl
  have second : qualifier found'.subject.package.ref = "p" := by
    rw [← called, whole, ← (drafted.of_bare bare).1]
    rfl
  rw [types, making, calling, names]
  simp [Avoids, printed, packagesIn, Snippet.package?, first, second]

/-- In a package called like the parameter of the test, the call of the function is shadowed. -/
theorem not_isUnshadowed_short : ∃ changes found draft extra qualifier,
    addTest (shortPackages.workspace none) ⟨⟨"t/t.go"⟩, .point ⟨1, 6⟩⟩ = .ok changes ∧
    plannedAt shortPackages ⟨⟨"t/t.go"⟩, .point ⟨1, 6⟩⟩ = .ok found ∧
    IsDrafted found.subject found.site found.function draft extra ∧
    found.plan = draft.separated.written qualifier ∧
    ⟨3, "t.F()"⟩ ∈ (draft.separated.script qualifier).lines qualifier ∧
    ¬(draft.separated.script qualifier).IsUnshadowed qualifier := by
  have checked : (plannedAt shortPackages ⟨⟨"t/t.go"⟩, .point ⟨1, 6⟩⟩).toOption.any (fun found =>
      found.subject.package.ref == ⟨"m/t", "t"⟩ && found.function.isBare "F" &&
        found.plan.testing == "testing" && found.plan.package == "t") = true := by decide +kernel
  obtain ⟨changes, found, added, located, ref, bare, -, called⟩ :=
    exists_added_short (by decide) checked
  obtain ⟨draft, extra, drafted, whole, -⟩ := planTest_eq_ok (planTest_of_plannedAt located)
  refine ⟨changes, found, draft, extra, _, added, located, drafted, whole, ?_, fun unshadowed => ?_⟩
  · obtain ⟨-, alone, target, -⟩ := drafted.of_bare bare
    have plain : found.plan.receiver = none ∧ found.plan.target = ⟨"F", [], []⟩ := by
      rw [whole]
      simp [PlanDraft.written, PlanDraft.separated, CalleeDraft.written, alone, target]
    rw [lines_script, ← whole, ← List.count_pos_iff, count_lines_case found.plan 0,
      List.count_pos_iff, caseLines, callLine, plain.1, plain.2, called]
    decide
  · obtain ⟨-, -, calling, -⟩ := parts_of_bare drafted bare
    obtain ⟨-, body, -⟩ := (isUnshadowed_script_iff _).mp unshadowed
    have short : (viewpointOf found.subject found.site).qualifiersIn extra
        found.subject.package.ref = "t" := by
      rw [← called, whole, ← (drafted.of_bare bare).1]
      rfl
    rw [avoids_append, calling] at body
    exact body.2 "t" (by simp [printed, packagesIn, Snippet.package?, short]) (by simp)

end Scaffold
