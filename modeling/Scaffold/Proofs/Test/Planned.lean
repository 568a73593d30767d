import Scaffold.Proofs.Test.Addition
import Scaffold.Proofs.Test.Draft

/-! A planned test is a draft, told apart from itself and written under the qualifiers asked for. -/

namespace Scaffold

open Go

/-- The draft that the plan of a test is written from, and what is noted while it is written. -/
structure IsDrafted (subject : Subject) (site : TestSite) (function : Function)
    (draft : PlanDraft) (extra : ImportSet) : Prop where
  drafted : ∃ name choice, testName function = .ok name ∧
    chooseReceiver subject.package.plainFunctions function (viewpointOf subject site).external =
      .ok choice ∧
    draft = planDraft subject.package.ref
      (uniqueTestName name site.destination.functionNames) function choice
  visible : (viewpointOf subject site).external = true →
    checkVisibility function subject.package.name = .ok ()
  noted : extra = draft.asked.foldl (viewpointOf subject site).noting []

/-- What is noted for a draft is what holds of any noted imports. -/
theorem IsDrafted.sound {subject : Subject} {site : TestSite} {function : Function}
    {draft : PlanDraft} {extra : ImportSet} (drafted : IsDrafted subject site function draft extra) :
    (viewpointOf subject site).Sound extra :=
  drafted.noted ▸ Viewpoint.Sound.foldl draft.asked ⟨List.Pairwise.nil, by simp, by simp⟩

/-- For a bare function only the package for tests and the tested one are asked for. -/
theorem IsDrafted.of_bare {subject : Subject} {site : TestSite} {function : Function}
    {draft : PlanDraft} {extra : ImportSet} (drafted : IsDrafted subject site function draft extra)
    {called : String} (bare : function.isBare called = true) : draft.subject = subject.package.ref ∧
      draft.receiver = none ∧ draft.target = ⟨called, [], []⟩ ∧
      draft.asked = [.testing, subject.package.ref] := by
  obtain ⟨title, choice, -, chosen, rfl⟩ := drafted.drafted
  obtain ⟨name, owner, receiver, ⟨params, results, variadic⟩, file, start⟩ := function
  simp only [Go.Function.isBare, Bool.and_eq_true, beq_iff_eq, List.isEmpty_iff,
    Option.isNone_iff_eq_none] at bare
  obtain ⟨⟨⟨⟨rfl, rfl⟩, rfl⟩, rfl⟩, -⟩ := bare
  cases chosen
  exact ⟨rfl, rfl, rfl, rfl⟩

/-- A test is planned by writing its draft under the qualifiers it asks for. -/
theorem planTest_eq_ok {subject : Subject} {site : TestSite} {function : Function}
    {plan : TestPlan} {imports : List Import}
    (planned : planTest subject site function = .ok (plan, imports)) :
    ∃ draft extra, IsDrafted subject site function draft extra ∧
      plan = draft.separated.written ((viewpointOf subject site).qualifiersIn extra) ∧
      imports = neededImports extra := by
  have visible : (viewpointOf subject site).external = true →
      checkVisibility function subject.package.name = .ok () := by
    intro outside
    rw [planTest, if_pos outside] at planned
    obtain ⟨⟨⟩, seen, -⟩ := Except.of_bind_eq_ok planned
    exact seen
  -- Whether the function had to be visible or not, the same steps are left.
  obtain ⟨name, choice, named, chosen, written⟩ : ∃ name choice, testName function = .ok name ∧
      chooseReceiver subject.package.plainFunctions function
        (viewpointOf subject site).external = .ok choice ∧
      (fun written => Except.ok (written.1.separated, neededImports written.2))
        (((viewpointOf subject site).writePlan
          (uniqueTestName name site.destination.functionNames) function choice).run []) =
        (.ok (plan, imports) : Except Failure (TestPlan × List Import)) := by
    rw [planTest] at planned
    split at planned
    · obtain ⟨⟨⟩, -, planned⟩ := Except.of_bind_eq_ok planned
      obtain ⟨name, named, planned⟩ := Except.of_bind_eq_ok planned
      obtain ⟨choice, chosen, written⟩ := Except.of_bind_eq_ok planned
      exact ⟨name, choice, named, chosen, written⟩
    · obtain ⟨name, named, planned⟩ := Except.of_bind_eq_ok planned
      obtain ⟨choice, chosen, written⟩ := Except.of_bind_eq_ok planned
      exact ⟨name, choice, named, chosen, written⟩
  have run := (Viewpoint.Writes.writePlan (viewpointOf subject site)
    (uniqueTestName name site.destination.functionNames) function choice).run []
  rw [run] at written
  cases written
  refine ⟨_, _, ⟨⟨name, choice, named, chosen, rfl⟩, visible, rfl⟩, ?_, rfl⟩
  exact (PlanDraft.written_separated _ _).symm

/-- What is known to go well has a result. -/
theorem Except.exists_of_isOk {ε α : Type} {result : Except ε α} (ok : result.isOk = true) :
    ∃ a, result = .ok a := by
  cases result with
  | error error => cases ok
  | ok a => exact ⟨a, rfl⟩

/-- The function at a location and all that its test is planned from. -/
structure PlannedTest where
  subject : Subject
  site : TestSite
  function : Function
  plan : TestPlan
  imports : List Import

/-- The planned test of the function at a location, as it is worked out on the way to its changes. -/
def plannedAt (tree : FileTree) (location : Location) : Except Failure PlannedTest := do
  let package ← loadPackage (tree.workspace none) location.path
  let subject ← openSubject package location.path
  let site ← siteOf subject (testFilePath location.path)
    (tree.read? (testFilePath location.path))
  let function ← targetOf subject location.range
  let (plan, imports) ← planTest subject site function
  return ⟨subject, site, function, plan, imports⟩

/-- What is planned at a location is planned for the function there. -/
theorem planTest_of_plannedAt {tree : FileTree} {location : Location} {found : PlannedTest}
    (located : plannedAt tree location = .ok found) :
    planTest found.subject found.site found.function = .ok (found.plan, found.imports) := by
  obtain ⟨package, -, located⟩ := Except.of_bind_eq_ok located
  obtain ⟨subject, -, located⟩ := Except.of_bind_eq_ok located
  obtain ⟨site, -, located⟩ := Except.of_bind_eq_ok located
  obtain ⟨function, -, located⟩ := Except.of_bind_eq_ok located
  obtain ⟨⟨plan, imports⟩, planned, located⟩ := Except.of_bind_eq_ok located
  cases located
  exact planned

/-- A test planned at a location whose text can be written is one that is added there. -/
theorem isPlanned_of_plannedAt {tree : FileTree} {location : Location} {found : PlannedTest}
    {test : String} (located : plannedAt tree location = .ok found)
    (rendered : found.plan.render = .ok test) :
    IsPlanned tree none location found.subject found.site found.imports test ∧
      targetOf found.subject location.range = .ok found.function := by
  obtain ⟨package, loaded, located⟩ := Except.of_bind_eq_ok located
  obtain ⟨subject, opened, located⟩ := Except.of_bind_eq_ok located
  obtain ⟨site, sited, located⟩ := Except.of_bind_eq_ok located
  obtain ⟨function, target, located⟩ := Except.of_bind_eq_ok located
  obtain ⟨⟨plan, imports⟩, planned, located⟩ := Except.of_bind_eq_ok located
  cases located
  exact ⟨⟨⟨package, loaded, opened⟩, sited, function, plan, target, planned, rendered⟩, target⟩

/-- A check of what is planned at a location holds of something. -/
theorem exists_plannedAt (tree : FileTree) (location : Location) (check : PlannedTest → Bool)
    (checked : (plannedAt tree location).toOption.any check = true) :
    ∃ found, plannedAt tree location = .ok found ∧ check found = true := by
  cases found : plannedAt tree location with
  | error failure =>
    rw [found] at checked
    cases checked
  | ok planned =>
    rw [found] at checked
    exact ⟨planned, rfl, checked⟩

end Scaffold
