import Scaffold.Proofs.Test.Constructor
import Scaffold.Proofs.Test.Results

/-! Which types the fields of a planned test are written for, and which functions those are of. -/

namespace Scaffold

open Go

/-- The fields of a callee. -/
def CalleeDraft.fields (draft : CalleeDraft) : List FieldDraft :=
  draft.args ++ draft.results

/-- The variable of a receiver, and the fields of what makes it. -/
def ReceiverDraft.fields (draft : ReceiverDraft) : List FieldDraft :=
  draft.holder :: (draft.constructor.map CalleeDraft.fields).getD []

/-- All fields of a plan. -/
def PlanDraft.fields (draft : PlanDraft) : List FieldDraft :=
  draft.target.fields ++ (draft.receiver.map ReceiverDraft.fields).getD []

/-- The fields of a callee as they are written. -/
def Callee.fields (callee : Callee) : List Field :=
  callee.args ++ callee.results

/-- The variable of a receiver, and the fields of what makes it, as they are written. -/
def Receiver.fields (receiver : Receiver) : List Field :=
  receiver.holder :: (receiver.constructor.map Callee.fields).getD []

/-- All fields of a plan as they are written. -/
def TestPlan.fields (plan : TestPlan) : List Field :=
  plan.target.fields ++ (plan.receiver.map Receiver.fields).getD []

section Marked

theorem FieldDraft.marked_empty (draft : FieldDraft) : draft.marked "" = draft := by
  rw [FieldDraft.marked, String.empty_append]
  split <;> rfl

@[simp] theorem FieldDraft.type_marked (mark : String) (draft : FieldDraft) :
    (draft.marked mark).type = draft.type := by
  unfold FieldDraft.marked
  split <;> rfl

@[simp] theorem FieldDraft.value_marked (mark : String) (draft : FieldDraft) :
    (draft.marked mark).value = draft.value := by
  unfold FieldDraft.marked
  split <;> rfl

end Marked

section Written

variable {draft : PlanDraft} {qualifier : PackageRef → String}

/-- Each field of a callee is written from one of its drafts. -/
theorem CalleeDraft.fields_written (draft : CalleeDraft) :
    (draft.written qualifier).fields = draft.fields.map (FieldDraft.written qualifier) :=
  (List.map_append).symm

theorem ReceiverDraft.fields_written (draft : ReceiverDraft) :
    (draft.written qualifier).fields = draft.fields.map (FieldDraft.written qualifier) := by
  obtain ⟨holder, constructor⟩ := draft
  cases constructor with
  | none => rfl
  | some callee => exact congrArg (_ :: ·) callee.fields_written

/-- Each field of a plan is written from one of its drafts. -/
theorem PlanDraft.fields_written (draft : PlanDraft) :
    (draft.written qualifier).fields = draft.fields.map (FieldDraft.written qualifier) := by
  obtain ⟨subject, testName, target, receiver⟩ := draft
  rw [PlanDraft.fields, List.map_append, ← target.fields_written]
  cases receiver with
  | none => rfl
  | some receiver => exact congrArg (_ ++ ·) receiver.fields_written

/-- The fields of a callee with marked names are its fields, but for the marks. -/
theorem CalleeDraft.mem_fields_apartFrom {callee : CalleeDraft} {others : List FieldDraft}
    {field : FieldDraft} (member : field ∈ (callee.apartFrom others).fields) :
    ∃ original ∈ callee.fields, ∃ mark, field = original.marked mark := by
  rcases List.mem_append.mp member with arg | result
  · obtain ⟨original, among, rfl⟩ := List.mem_map.mp arg
    exact ⟨original, List.mem_append_left _ among, _, rfl⟩
  · exact ⟨field, List.mem_append_right _ result, "", field.marked_empty.symm⟩

/-- The fields of a plan told apart from itself are its fields, but for marks on names. -/
theorem PlanDraft.mem_fields_separated {draft : PlanDraft} {field : FieldDraft}
    (member : field ∈ draft.separated.fields) :
    ∃ original ∈ draft.fields, ∃ mark, field = original.marked mark := by
  -- Only the arguments of a constructor may be marked; all else is marked with nothing.
  obtain ⟨subject, testName, target, receiver⟩ := draft
  rcases List.mem_append.mp member with here | there
  · exact ⟨field, List.mem_append_left _ here, "", field.marked_empty.symm⟩
  cases receiver with
  | none => cases there
  | some receiver =>
    rcases List.mem_cons.mp there with rfl | made
    · exact ⟨_, List.mem_append_right _ List.mem_cons_self, "", (FieldDraft.marked_empty _).symm⟩
    obtain ⟨holder, constructor⟩ := receiver
    cases constructor with
    | none => cases made
    | some callee =>
      obtain ⟨original, among, marked⟩ := CalleeDraft.mem_fields_apartFrom made
      exact ⟨original, List.mem_append_right _ (List.mem_cons_of_mem _ among), marked⟩

end Written

/-- A field that is written for a type: with that type, and with a value of it or with none. -/
structure FieldDraft.IsFor (type : ResolvedType) (draft : FieldDraft) : Prop where
  typed : draft.type = typeSnippets type
  valued : draft.value = [] ∨ draft.value = zeroSnippets type ∨ draft.value = backgroundSnippets

/-- The types that a test of a function writes: those of its receiver without a pointer, of its
parameters and of its results. -/
def Go.Function.shownTypes (function : Function) : List ResolvedType :=
  function.receiverBase?.toList ++
    (function.signature.params ++ function.signature.results).map Var.type

section Drafts

variable {field : FieldDraft} {function : Function}

theorem isFor_paramDraft (isFirst : Bool) (param : Var) :
    (paramDraft isFirst param).IsFor param.type := by
  unfold paramDraft
  split
  · exact ⟨rfl, .inr (.inr rfl)⟩
  · split
    · exact ⟨rfl, .inr (.inl rfl)⟩
    · exact ⟨rfl, .inl rfl⟩

/-- Each argument is drafted from a parameter, spread or not. -/
theorem mem_paramDraftsFrom {variadic : Bool} {params : List Var} {index : Nat}
    (member : field ∈ paramDraftsFrom variadic index params) : ∃ param ∈ params,
      ∃ isFirst isSpread, field = { paramDraft isFirst param with variadic := isSpread } := by
  induction params generalizing index with
  | nil => cases member
  | cons param rest ih =>
    rcases List.mem_cons.mp member with rfl | later
    · exact ⟨param, List.mem_cons_self, _, _, rfl⟩
    · obtain ⟨other, among, drafted⟩ := ih later
      exact ⟨other, List.mem_cons_of_mem _ among, drafted⟩

/-- Each bound result is written for the type of a result. -/
theorem isFor_of_mem_resultDraftsFrom {name : Nat → Bool → String} {results : List Var}
    {index : Nat} (member : field ∈ resultDraftsFrom name index results) :
    ∃ result ∈ results, field.IsFor result.type := by
  induction results generalizing index with
  | nil => cases member
  | cons result rest ih =>
    rcases List.mem_cons.mp member with rfl | later
    · exact ⟨result, List.mem_cons_self, rfl, .inl rfl⟩
    · obtain ⟨other, among, given⟩ := ih later
      exact ⟨other, List.mem_cons_of_mem _ among, given⟩

/-- Each field of a call is written for a type in the signature that is called. -/
theorem isFor_of_mem_callee {called : String} {name : Nat → Bool → String}
    (member : field ∈ (CalleeDraft.mk called (paramDrafts function.signature)
      (resultDraftsFrom name 0 function.signature.results)).fields) :
    ∃ type ∈ function.shownTypes, field.IsFor type := by
  have among : ∀ var ∈ function.signature.params ++ function.signature.results,
      var.type ∈ function.shownTypes :=
    fun var listed => List.mem_append_right _ (List.mem_map_of_mem listed)
  rcases List.mem_append.mp member with arg | result
  · obtain ⟨param, listed, isFirst, isSpread, rfl⟩ := mem_paramDraftsFrom arg
    obtain ⟨typed, valued⟩ := isFor_paramDraft isFirst param
    exact ⟨_, among param (List.mem_append_left _ listed), typed, valued⟩
  · obtain ⟨var, listed, given⟩ := isFor_of_mem_resultDraftsFrom result
    exact ⟨_, among var (List.mem_append_right _ listed), given⟩

/-- The arguments of a planned test are written from the parameters of the function. -/
theorem args_of_planned {subject : Subject} {site : TestSite} {draft : PlanDraft}
    {extra : ImportSet} (drafted : IsDrafted subject site function draft extra)
    (qualifier : PackageRef → String) :
    (draft.separated.written qualifier).target.args =
      (paramDrafts function.signature).map (FieldDraft.written qualifier) := by
  obtain ⟨name, choice, -, -, rfl⟩ := drafted.drafted
  rfl

/-- What a receiver is declared by: the type of the receiver, and a function that makes it. -/
structure ReceiverChoice.IsFor (functions : List Function) (function : Function) (external : Bool)
    (choice : ReceiverChoice) : Prop where
  base : function.receiverBase? = some choice.base
  holder : ∃ receiver typeName, function.receiver = some receiver ∧
    function.receiverTypeName? = some typeName ∧
    choice.holder = receiverVariable receiver.name typeName
  constructor : ∀ made ∈ choice.constructor, made ∈ functions ∧
    ∃ wanted, isConstructorFor made wanted external = true

theorem chooseReceiver_eq_ok {functions : List Function} {external : Bool}
    {choice : Option ReceiverChoice}
    (chosen : chooseReceiver functions function external = .ok choice) :
    ∀ found ∈ choice, found.IsFor functions function external := by
  rw [chooseReceiver] at chosen
  cases held : function.receiver with
  | none =>
    rw [held] at chosen
    cases chosen
    simp
  | some receiver =>
    rw [held] at chosen
    obtain ⟨typeName, named, chosen⟩ := Except.of_bind_eq_ok chosen
    have called : function.receiverTypeName? = some typeName := by
      rw [receiverTypeName] at named
      split at named <;> cases named
      assumption
    split at chosen
    · cases chosen
    · cases chosen
      rintro found ⟨⟩
      refine ⟨by rw [Function.receiverBase?, held]; rfl, ⟨_, _, held, called, rfl⟩,
        fun made among => ?_⟩
      obtain ⟨member, makes⟩ := findConstructor_eq_some among
      exact ⟨member, _, makes⟩

/-- Each field of a plan is written for a type of the tested function, or of one of the functions
that may make its receiver. -/
theorem isFor_of_mem_planDraft {functions : List Function} {external : Bool}
    {choice : Option ReceiverChoice} {subject : PackageRef} {testName : String}
    (chosen : chooseReceiver functions function external = .ok choice)
    (member : field ∈ (planDraft subject testName function choice).fields) :
    ∃ source, (source = function ∨ source ∈ functions) ∧
      ∃ type ∈ source.shownTypes, field.IsFor type := by
  rcases List.mem_append.mp member with target | receiver
  · exact ⟨function, .inl rfl, isFor_of_mem_callee target⟩
  cases choice with
  | none => cases receiver
  | some choice =>
    have made := chooseReceiver_eq_ok chosen choice rfl
    rcases List.mem_cons.mp receiver with rfl | inner
    · refine ⟨function, .inl rfl, choice.base, ?_, rfl, .inl rfl⟩
      rw [Go.Function.shownTypes, made.base]
      exact List.mem_append_left _ (List.mem_singleton_self _)
    obtain ⟨holder, base, constructor⟩ := choice
    cases constructor with
    | none => cases inner
    | some other => exact ⟨other, .inr (made.constructor other rfl).1, isFor_of_mem_callee inner⟩

end Drafts

/-- A tested function is one of its package. -/
theorem mem_functions_of_targetOf {subject : Subject} {range : Range} {function : Function}
    (target : targetOf subject range = .ok function) : function ∈ subject.package.functions := by
  unfold targetOf at target
  split at target
  · cases target
  · split at target
    · cases target
    · split at target
      · cases target
      · rename_i found
        cases target
        exact List.mem_of_find?_eq_some found

/-- What is opened is the package that was given, and nothing is wrong with that. -/
theorem openSubject_eq_ok {package : Package} {path : FilePath} {subject : Subject}
    (opened : openSubject package path = .ok subject) :
    subject.package = package ∧ package.errors = [] := by
  obtain ⟨⟨⟩, checked, opened⟩ := Except.of_bind_eq_ok opened
  -- The check comes first, and passes packages without errors only.
  have sound : package.errors = [] := by
    unfold checkPackage at checked
    split at checked
    · cases checked
    · split at checked
      · cases checked
      · split at checked
        · assumption
        · cases checked
  split at opened
  · cases opened
  · obtain ⟨imports, -, opened⟩ := Except.of_bind_eq_ok opened
    cases opened
    exact ⟨rfl, sound⟩

/-- The functions without a receiver are among those of the package. -/
theorem mem_functions_of_plain {package : Package} {function : Function}
    (member : function ∈ package.plainFunctions) : function ∈ package.functions :=
  (List.mem_filter.mp ((sortOrdered_perm _ _).mem_iff.mp member)).1

end Scaffold
