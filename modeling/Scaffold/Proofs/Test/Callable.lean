import Scaffold.Proofs.Test.Constructor
import Scaffold.Proofs.Test.Visible

/-! What a test calls can be referred to by its name, save where the tested package itself has
functions without one. -/

namespace Scaffold

open Go

/-- What a plan calls has names that can be referred to: no call is to something blank, and the
target is no initializer of its package unless it has a receiver. -/
structure TestPlan.IsCallable (plan : TestPlan) : Prop where
  target : plan.target.name ≠ "_"
  plain : plan.receiver = none → plan.target.name ≠ "init"
  maker : ∀ receiver, plan.receiver = some receiver →
    ∀ made, receiver.constructor = some made → made.name ≠ "_"

/-- A blank function is the one to make the receiver of a method: it makes values of that type, and
of all functions that do, none is named after the type and none comes before it by name. -/
def MakesBlank (functions : List Function) (method : Function) (external : Bool) : Prop :=
  ∃ receiver wanted typeName, method.receiver = some receiver ∧
    receiver.type.receiverNamed? = some wanted ∧ method.receiverTypeName? = some typeName ∧
    (∃ blank ∈ functions, blank.name = "_" ∧ isConstructorFor blank wanted external = true) ∧
    ∀ maker ∈ functions, isConstructorFor maker wanted external = true →
      isNamedAfter typeName maker = false ∧ "_" ≤ maker.name

section Choice

variable {functions : List Function} {external : Bool}

/-- A blank function is not named after any type. -/
theorem isNamedAfter_blank {function : Function} (blank : function.name = "_") (typeName : String) :
    isNamedAfter typeName function = false := by
  -- The names differ in their first letters already.
  rw [isNamedAfter, blank, sameIgnoringCase]
  simp

/-- A blank function is found exactly if one makes the type, in front of all others that do. -/
theorem findConstructor_blank_iff {wanted : NamedType} {typeName : String} :
    (∃ made, findConstructor functions wanted typeName external = some made ∧ made.name = "_") ↔
      (∃ blank ∈ functions, blank.name = "_" ∧ isConstructorFor blank wanted external = true) ∧
      ∀ maker ∈ functions, isConstructorFor maker wanted external = true →
        isNamedAfter typeName maker = false ∧ "_" ≤ maker.name := by
  -- A blank name is no name to be preferred, so it is found only for being the least.
  constructor
  · rintro ⟨made, found, blank⟩
    have chosen := isChosen_of_found found
    refine ⟨⟨made, chosen.member, blank, chosen.makes⟩, ?_⟩
    rcases chosen.ranks with ⟨named, -⟩ | first
    · rw [isNamedAfter_blank blank] at named
      cases named
    · rwa [blank] at first
  · rintro ⟨⟨blank, member, name, makes⟩, first⟩
    cases found : findConstructor functions wanted typeName external with
    | none =>
      have none := findConstructor_eq_none_iff.mp found blank member
      rw [makes] at none
      cases none
    | some made =>
      have chosen := isChosen_of_found found
      refine ⟨made, rfl, ?_⟩
      rcases chosen.ranks with ⟨named, -⟩ | least
      · rw [(first made chosen.member chosen.makes).1] at named
        cases named
      · -- Neither of the two names comes before the other.
        exact le_antisymm (name ▸ (least blank member makes).2)
          (first made chosen.member chosen.makes).2

/-- What is chosen for the receiver of a method is chosen by its type. -/
theorem chooseReceiver_of_method {function : Function} {choice : Option ReceiverChoice}
    (chosen : chooseReceiver functions function external = .ok choice) :
    (choice = none ↔ function.receiver = none) ∧
    ((∃ made ∈ choice.bind ReceiverChoice.constructor, made.name = "_") ↔
      MakesBlank functions function external) := by
  rw [chooseReceiver] at chosen
  -- A plain function has no receiver to make; that of a method has a type with a name.
  split at chosen
  · rename_i plain
    cases chosen
    refine ⟨by simp [plain], iff_of_false (by simp) ?_⟩
    rintro ⟨receiver, -, -, held, -⟩
    rw [plain] at held
    cases held
  · rename_i receiver held
    obtain ⟨typeName, called, chosen⟩ := Except.of_bind_eq_ok chosen
    rw [receiverTypeName] at called
    split at called <;> cases called
    rename_i declared
    split at chosen
    · cases chosen
    · rename_i wanted named
      cases chosen
      have blank : (∃ made ∈ findConstructor functions wanted typeName external,
          made.name = "_") ↔ _ := findConstructor_blank_iff
      refine ⟨by simp [held], blank.trans ⟨fun first => ?_, ?_⟩⟩
      · exact ⟨receiver, wanted, typeName, held, named, declared, first⟩
      · -- There is but one receiver, of one type and with one name.
        rintro ⟨other, type, name, held', named', declared', first⟩
        obtain rfl := Option.some.inj (held.symm.trans held')
        obtain rfl := Option.some.inj (named.symm.trans named')
        obtain rfl := Option.some.inj (declared.symm.trans declared')
        exact first

/-- Outside its package a blank function is out of reach. -/
theorem not_makesBlank_external (function : Function) : ¬MakesBlank functions function true := by
  -- What makes receivers there is exported, and `_` is no capital.
  rintro ⟨-, wanted, -, -, -, -, ⟨blank, -, name, makes⟩, -⟩
  have exported := isExported_of_isConstructorFor makes
  rw [Function.isExported, name] at exported
  exact absurd exported (by decide)

end Choice

section Plans

variable {subject : Subject} {site : TestSite} {function : Function} {draft : PlanDraft}
  {extra : ImportSet}

/-- A plan calls its function by name, on a receiver exactly if that has one. -/
theorem called_of_drafted (drafted : IsDrafted subject site function draft extra)
    (qualifier : PackageRef → String) :
    (draft.separated.written qualifier).target.name = function.name ∧
    ((draft.separated.written qualifier).receiver = none ↔ function.receiver = none) ∧
    ((∃ receiver made, (draft.separated.written qualifier).receiver = some receiver ∧
        receiver.constructor = some made ∧ made.name = "_") ↔
      MakesBlank subject.package.plainFunctions function (viewpointOf subject site).external) := by
  obtain ⟨name, choice, -, chosen, rfl⟩ := drafted.drafted
  -- Names go into the plan as they are; only parameters are renamed.
  obtain ⟨plain, blank⟩ := chooseReceiver_of_method chosen
  refine ⟨rfl, ?_, Iff.trans ?_ blank⟩
  · rw [← plain]
    cases choice <;> simp [planDraft, PlanDraft.separated, PlanDraft.written]
  · cases choice with
    | none => simp [planDraft, PlanDraft.separated, PlanDraft.written]
    | some choice =>
      obtain ⟨holder, base, constructor⟩ := choice
      cases constructor <;>
        simp [planDraft, receiverDraft, PlanDraft.separated, PlanDraft.written,
          ReceiverDraft.written, CalleeDraft.written, CalleeDraft.apartFrom, constructorDraft]

end Plans

/--
What a test outside its package calls can be referred to.

Inside, this is so exactly if the tested function has a name to be called by, and no blank function
makes its receiver.
-/
theorem isCallable_iff {tree : FileTree} {setting : Option String} {location : Location}
    {changes : List Change} (added : addTest (tree.workspace setting) location = .ok changes) :
    ∃ found test, plannedAt tree location = .ok found ∧ found.plan.render = .ok test ∧
      found.site.destination.changes test found.imports setting = .ok changes ∧
      found.plan.target.name = found.function.name ∧
      (found.plan.receiver = none ↔ found.function.receiver = none) ∧
      (found.plan.IsCallable ↔ found.site.package = .external ∨
        found.function.name ≠ "_" ∧
        (found.function.receiver = none → found.function.name ≠ "init") ∧
        ¬MakesBlank found.subject.package.plainFunctions found.function false) := by
  obtain ⟨found, test, located, rendered, made⟩ := planned_of_addTest added
  obtain ⟨draft, extra, drafted, whole, -⟩ := planTest_eq_ok (planTest_of_plannedAt located)
  obtain ⟨target, plain, blank⟩ := called_of_drafted drafted
    ((viewpointOf found.subject found.site).qualifiersIn extra)
  rw [← whole] at target plain blank
  refine ⟨found, test, located, rendered, made, target, plain, ?_⟩
  -- On either side of the package boundary, the names of the plan are those of the functions.
  have callable : found.plan.IsCallable ↔ found.function.name ≠ "_" ∧
      (found.function.receiver = none → found.function.name ≠ "init") ∧
      ¬MakesBlank found.subject.package.plainFunctions found.function
        (viewpointOf found.subject found.site).external := by
    rw [← blank, ← target, ← plain]
    constructor
    · rintro ⟨named, initial, maker⟩
      exact ⟨named, initial, fun ⟨receiver, made, held, makes, name⟩ =>
        maker receiver held made makes name⟩
    · rintro ⟨named, initial, maker⟩
      exact ⟨named, initial, fun receiver held made makes name =>
        maker ⟨receiver, made, held, makes, name⟩⟩
  rw [callable]
  cases package : found.site.package with
  | external =>
    have outside : (viewpointOf found.subject found.site).external = true := by
      simp [viewpointOf, package]
    -- What is called there is exported, which no blank name and no initializer is.
    have exported := (checkVisibility_eq_ok (drafted.visible outside)).1
    rw [outside]
    refine iff_of_true ⟨?_, fun _ => ?_, not_makesBlank_external _⟩ (.inl rfl)
    all_goals
      intro name
      rw [Function.isExported, name] at exported
      exact absurd exported (by decide)
  | own =>
    have inside : (viewpointOf found.subject found.site).external = false := by
      simp [viewpointOf, package]
    rw [inside]
    simp

/-- A module with a type that one function makes, and with a test file inside its package. -/
def makerNamed (name : String) : FileTree :=
  ⟨[(⟨"go.mod"⟩, "module m"),
    (⟨"p.go"⟩, "package p\ntype S struct\x7b\x7d\nfunc " ++ name ++
      "() *S \x7b return nil \x7d\nfunc (s S) M() \x7b\x7d"),
    (⟨"p_test.go"⟩, "package p")]⟩

/-- The method of that type. -/
def methodOfMade : Location :=
  ⟨⟨"p.go"⟩, .point ⟨3, 6⟩⟩

/-- Inside the package the test of the method calls a maker that has a name. -/
theorem isCallable_iff_newS : ∃ changes found,
    addTest ((makerNamed "newS").workspace none) methodOfMade = .ok changes ∧
    plannedAt (makerNamed "newS") methodOfMade = .ok found ∧ found.site.package = .own ∧
    found.function.name = "M" ∧ found.plan.IsCallable := by
  obtain ⟨found, located, checked⟩ := exists_plannedAt (makerNamed "newS") methodOfMade
    (fun found => found.subject.package.ref == ⟨"m", "p"⟩ && found.site.package == .own &&
      found.function.name == "M" &&
      found.subject.package.plainFunctions.all fun function => function.name == "newS")
    (by decide +kernel)
  simp only [Bool.and_eq_true, beq_iff_eq, List.all_eq_true] at checked
  obtain ⟨⟨⟨ref, inside⟩, name⟩, makers⟩ := checked
  have apart : found.subject.package.ref.path ≠ "testing" := by
    rw [ref]
    decide
  obtain ⟨changes, added⟩ := exists_addTest located apart none
  obtain ⟨found', test, same, -, -, -, -, iff⟩ := isCallable_iff added
  obtain rfl := Except.ok.inj (same.symm.trans located)
  refine ⟨changes, _, added, located, inside, name, iff.mpr (.inr ⟨?_, fun _ => ?_, ?_⟩)⟩
  · rw [name]
    decide
  · rw [name]
    decide
  · -- No function of the package is blank.
    rintro ⟨-, -, -, -, -, -, ⟨blank, member, unnamed, -⟩, -⟩
    have named := makers blank member
    rw [unnamed] at named
    exact absurd named (by decide)

/-- Inside the package the test of the method calls a blank maker. -/
theorem not_isCallable_blank : ∃ changes found test receiver made,
    addTest ((makerNamed "_").workspace none) methodOfMade = .ok changes ∧
    plannedAt (makerNamed "_") methodOfMade = .ok found ∧ found.plan.render = .ok test ∧
    found.site.destination.changes test found.imports none = .ok changes ∧
    found.plan.receiver = some receiver ∧ receiver.constructor = some made ∧ made.name = "_" ∧
    ¬found.plan.IsCallable := by
  obtain ⟨found, located, checked⟩ := exists_plannedAt (makerNamed "_") methodOfMade
    (fun found => found.subject.package.ref == ⟨"m", "p"⟩ &&
      (found.plan.receiver.bind Receiver.constructor).any fun made => made.name == "_")
    (by decide +kernel)
  simp only [Bool.and_eq_true, beq_iff_eq, Option.any_eq_true] at checked
  obtain ⟨ref, made, calls, blank⟩ := checked
  obtain ⟨receiver, held, makes⟩ := Option.bind_eq_some_iff.mp calls
  have apart : found.subject.package.ref.path ≠ "testing" := by
    rw [ref]
    decide
  obtain ⟨changes, added⟩ := exists_addTest located apart none
  obtain ⟨found', test, same, rendered, written⟩ := planned_of_addTest added
  obtain rfl := Except.ok.inj (same.symm.trans located)
  exact ⟨changes, _, test, receiver, made, added, located, rendered, written, held, makes, blank,
    fun callable => callable.maker receiver held made makes blank⟩

end Scaffold
