import Scaffold.Proofs.Test.Visible
import Scaffold.Proofs.Text.Case

/-! The names that the body of a test case binds, and when they can be bound side by side. -/

namespace Scaffold

open Go

section Variable

variable {declared typeName : String}

end Variable

section Results

variable {index other count : Nat} {isError : Bool}

/-- The names for the results of a function. -/
def gotNames (results : List Var) : List String :=
  results.mapIdx fun index result => gotName index results.length result.type.isError

end Results

section Bound

/-- The names that the lines for a receiver declare. -/
def Receiver.declared (receiver : Receiver) : List String :=
  match receiver.constructor with
  -- The variable is the first result of the constructor.
  | some constructor => constructor.results.map Field.name
  | none => [receiver.holder.name]

/-- The names that the body of a test case declares, for the receiver and for the results. -/
def TestPlan.boundNames (plan : TestPlan) : List String :=
  (plan.receiver.elim [] Receiver.declared) ++ plan.target.results.map Field.name

/-- Whether a line declares a name, among others or on its own. -/
def Line.Declares (shown : Line) (name : String) : Prop :=
  (∃ names call, name ∈ names ∧ shown.text = joinStrings ", " names ++ " := " ++ call) ∨
    ∃ type, shown.text = "var " ++ name ++ " " ++ type

end Bound

section Planned

variable {functions : List Function} {function : Function} {external : Bool}

/-- A receiver is declared as its variable, perhaps with an error beside it. -/
theorem declared_receiverDraft {choice : ReceiverChoice} (qualifier : PackageRef → String)
    (chosen : choice.IsFor functions function external) : ∃ errors,
      (errors = [] ∨ errors = ["err"]) ∧
      ((receiverDraft choice).written qualifier).declared = choice.holder :: errors := by
  obtain ⟨holder, base, constructor⟩ := choice
  cases constructor with
  | none => exact ⟨[], .inl rfl, rfl⟩
  | some made =>
    -- What makes the receiver has one result, or an error as the second.
    obtain ⟨-, wanted, makes⟩ := chosen.constructor made rfl
    obtain ⟨-, first, rest, results, -, behind⟩ := isConstructorFor_iff.mp makes
    have names : ((receiverDraft ⟨holder, base, some made⟩).written qualifier).declared =
        (resultDraftsFrom (Viewpoint.madeName holder made.signature.results.length) 0
          made.signature.results).map FieldDraft.name :=
      List.map_map
    rw [names, results]
    rcases behind with rfl | ⟨failure, rfl, error⟩
    · exact ⟨[], .inl rfl, rfl⟩
    · refine ⟨["err"], .inr rfl, ?_⟩
      simp [resultDraftsFrom, Viewpoint.madeName, error]

/-- Naming the parameters apart changes none of the names that are bound. -/
theorem boundNames_separated (plan : TestPlan) : plan.separated.boundNames = plan.boundNames := by
  obtain ⟨testing, package, testName, target, receiver⟩ := plan
  rcases receiver with _ | ⟨holder, _ | constructor⟩ <;> rfl

/-- The results of the tested function are bound to the names for them. -/
theorem gotNames_of_drafted {subject : Subject} {site : TestSite} {draft : PlanDraft}
    {extra : ImportSet} (drafted : IsDrafted subject site function draft extra) :
    (draft.separated.written ((viewpointOf subject site).qualifiersIn extra)).target.results.map
      Field.name = gotNames function.signature.results := by
  rw [results_of_planned drafted, namedResults, gotNames, List.mapIdx_eq_zipIdx_map, List.map_map,
    List.mapIdx_eq_zipIdx_map]
  rfl

/-- The body of a test of a method binds a variable for the receiver, and names for the results. -/
theorem boundNames_of_drafted {subject : Subject} {site : TestSite} {draft : PlanDraft}
    {extra : ImportSet} (drafted : IsDrafted subject site function draft extra) {receiver : Var}
    (held : function.receiver = some receiver) : ∃ typeName errors,
      function.receiverTypeName? = some typeName ∧ (errors = [] ∨ errors = ["err"]) ∧
      (draft.separated.written ((viewpointOf subject site).qualifiersIn extra)).boundNames =
        receiverVariable receiver.name typeName :: (errors ++ gotNames function.signature.results) := by
  have got := gotNames_of_drafted drafted
  obtain ⟨title, choice, -, chosen, rfl⟩ := drafted.drafted
  rw [PlanDraft.written_separated] at got ⊢
  rw [boundNames_separated]
  cases choice with
  | none =>
    -- Only a function without a receiver goes without a choice.
    rw [chooseReceiver, held] at chosen
    obtain ⟨typeName, -, chosen⟩ := Except.of_bind_eq_ok chosen
    split at chosen <;> cases chosen
  | some choice =>
    have isFor := chooseReceiver_eq_ok chosen choice rfl
    obtain ⟨same, typeName, held', called, holder⟩ := isFor.holder
    obtain rfl : same = receiver := Option.some.inj (held'.symm.trans held)
    obtain ⟨errors, one, declared⟩ :=
      declared_receiverDraft ((viewpointOf subject site).qualifiersIn extra) isFor
    refine ⟨typeName, errors, called, one, ?_⟩
    rw [TestPlan.boundNames, ← holder, ← List.cons_append, ← declared, ← got]
    rfl

end Planned

end Scaffold
