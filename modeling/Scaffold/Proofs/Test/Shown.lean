import Mathlib.Data.List.Infix
import Scaffold.Proofs.Test.Fields

/-! What a test shows of its plan, and which of the imports added for it are referred to. -/

namespace Scaffold

open Go

/-- The stretches that a test shows of a parameter: its type if it has a field, else its value. -/
def FieldDraft.shown (draft : FieldDraft) : List Snippet :=
  if draft.name.isEmpty then draft.value else draft.type

/-- The packages that are only in what a test leaves out of a parameter. -/
def FieldDraft.leftOut (draft : FieldDraft) : List PackageRef :=
  packagesIn (if draft.name.isEmpty then draft.type else draft.value)

/-- The stretches that a test shows of an expected result: its type, unless it is the error. -/
def FieldDraft.shownResult (draft : FieldDraft) : List Snippet :=
  if draft.name == "gotErr" then [] else draft.type

/-- The packages that are only in what a test leaves out of an expected result. -/
def FieldDraft.leftOutResult (draft : FieldDraft) : List PackageRef :=
  if draft.name == "gotErr" then draft.asked else packagesIn draft.value

/-- The stretches that a test shows of a receiver: its constructor if it has one, else its type. -/
def ReceiverDraft.shown (subject : PackageRef) (draft : ReceiverDraft) : List Snippet :=
  match draft.constructor with
  | some constructor => .name subject constructor.name :: constructor.args.flatMap FieldDraft.shown
  | none => draft.holder.type

/-- The packages that are only in what a test leaves out of a receiver. -/
def ReceiverDraft.leftOut (subject : PackageRef) (draft : ReceiverDraft) : List PackageRef :=
  match draft.constructor with
  | some constructor => draft.holder.asked ++ constructor.args.flatMap FieldDraft.leftOut
    ++ constructor.results.flatMap FieldDraft.asked
  | none => subject :: packagesIn draft.holder.value

/-- The stretches that a test shows. -/
def PlanDraft.shown (draft : PlanDraft) : List Snippet :=
  .member .testing "T" ::
    (match draft.receiver with
      | some receiver => receiver.shown draft.subject
      | none => [.name draft.subject draft.target.name])
    ++ draft.target.args.flatMap FieldDraft.shown
    ++ draft.target.results.flatMap FieldDraft.shownResult

/-- The packages that are only in what a test leaves out. -/
def PlanDraft.leftOut (draft : PlanDraft) : List PackageRef :=
  ((draft.receiver.map (ReceiverDraft.leftOut draft.subject)).getD [])
    ++ draft.target.args.flatMap FieldDraft.leftOut
    ++ draft.target.results.flatMap FieldDraft.leftOutResult

section Asked

variable {package : PackageRef}

/-- A package is among some stretches when one of them names it. -/
theorem mem_packagesIn {snippets : List Snippet} :
    package ∈ packagesIn snippets ↔ ∃ snippet ∈ snippets, snippet.package? = some package :=
  List.mem_filterMap

/-- Whatever parameters ask for is shown or left out. -/
theorem mem_asked_args {args : List FieldDraft} (asked : package ∈ args.flatMap FieldDraft.asked) :
    package ∈ packagesIn (args.flatMap FieldDraft.shown) ∨
      package ∈ args.flatMap FieldDraft.leftOut := by
  obtain ⟨arg, held, asks⟩ := List.mem_flatMap.mp asked
  have either : package ∈ packagesIn arg.shown ∨ package ∈ arg.leftOut := by
    rw [FieldDraft.asked, List.mem_append] at asks
    rw [FieldDraft.shown, FieldDraft.leftOut]
    split
    · exact asks.symm
    · exact asks
  refine either.imp (fun shown => ?_) (List.mem_flatMap.mpr ⟨arg, held, ·⟩)
  obtain ⟨snippet, within, names⟩ := mem_packagesIn.mp shown
  exact mem_packagesIn.mpr ⟨snippet, List.mem_flatMap.mpr ⟨arg, held, within⟩, names⟩

/-- Whatever results ask for is shown or left out. -/
theorem mem_asked_results {results : List FieldDraft}
    (asked : package ∈ results.flatMap FieldDraft.asked) :
    package ∈ packagesIn (results.flatMap FieldDraft.shownResult) ∨
      package ∈ results.flatMap FieldDraft.leftOutResult := by
  obtain ⟨result, held, asks⟩ := List.mem_flatMap.mp asked
  have either : package ∈ packagesIn result.shownResult ∨ package ∈ result.leftOutResult := by
    rw [FieldDraft.shownResult, FieldDraft.leftOutResult]
    split
    · exact .inr asks
    · exact List.mem_append.mp asks
  refine either.imp (fun shown => ?_) (List.mem_flatMap.mpr ⟨result, held, ·⟩)
  obtain ⟨snippet, within, names⟩ := mem_packagesIn.mp shown
  exact mem_packagesIn.mpr ⟨snippet, List.mem_flatMap.mpr ⟨result, held, within⟩, names⟩

/-- Whatever a receiver asks for is shown or left out. -/
theorem mem_asked_receiver {receiver : ReceiverDraft} (subject : PackageRef)
    (asked : package ∈ receiver.asked) :
    package ∈ packagesIn (receiver.shown subject) ∨ package ∈ receiver.leftOut subject := by
  obtain ⟨holder, constructor⟩ := receiver
  cases constructor with
  | none =>
    rw [ReceiverDraft.asked, Option.map_none, Option.getD_none, List.append_nil] at asked
    exact (List.mem_append.mp asked).imp_right (List.mem_cons_of_mem _)
  | some constructor =>
    rw [ReceiverDraft.asked, Option.map_some, Option.getD_some, CalleeDraft.asked,
      List.mem_append, List.mem_append] at asked
    simp only [ReceiverDraft.leftOut, List.mem_append]
    rcases asked with holder | args | results
    · exact .inr (.inl (.inl holder))
    · refine (mem_asked_args args).imp (fun shown => ?_) (.inl <| .inr ·)
      obtain ⟨snippet, within, names⟩ := mem_packagesIn.mp shown
      exact mem_packagesIn.mpr ⟨snippet, List.mem_cons_of_mem _ within, names⟩
    · exact .inr (.inr results)

/-- Whatever a test asks for is shown or left out. -/
theorem PlanDraft.mem_asked {draft : PlanDraft} (asked : package ∈ draft.asked) :
    package ∈ packagesIn draft.shown ∨ package ∈ draft.leftOut := by
  have part : ∀ {snippets : List Snippet}, (∀ snippet ∈ snippets, snippet ∈ draft.shown) →
      package ∈ packagesIn snippets → package ∈ packagesIn draft.shown := by
    intro snippets within shown
    obtain ⟨snippet, held, names⟩ := mem_packagesIn.mp shown
    exact mem_packagesIn.mpr ⟨snippet, within snippet held, names⟩
  obtain ⟨subject, testName, target, receiver⟩ := draft
  simp only [PlanDraft.asked, CalleeDraft.asked, List.cons_append, List.mem_cons,
    List.mem_append] at asked
  simp only [PlanDraft.leftOut, List.mem_append]
  rcases asked with rfl | rfl | (args | results) | owner
  · exact .inl (mem_packagesIn.mpr ⟨_, List.mem_cons_self .., rfl⟩)
  · -- The tested package stands before the function, or before the constructor of its receiver.
    cases receiver with
    | none =>
      have named : package ∈ packagesIn [.name package target.name] :=
        mem_packagesIn.mpr ⟨_, List.mem_singleton_self _, rfl⟩
      refine .inl (part (fun snippet held => ?_) named)
      simp [PlanDraft.shown, List.mem_singleton.mp held]
    | some receiver =>
      obtain ⟨holder, constructor⟩ := receiver
      cases constructor with
      | none => exact .inr (.inl (.inl (List.mem_cons_self ..)))
      | some constructor =>
        have named : package ∈ packagesIn [.name package constructor.name] :=
          mem_packagesIn.mpr ⟨_, List.mem_singleton_self _, rfl⟩
        refine .inl (part (fun snippet held => ?_) named)
        simp [PlanDraft.shown, ReceiverDraft.shown, List.mem_singleton.mp held]
  · refine (mem_asked_args args).imp (part fun snippet held => ?_) (.inl <| .inr ·)
    simp [PlanDraft.shown, held]
  · refine (mem_asked_results results).imp (part fun snippet held => ?_) (.inr ·)
    simp [PlanDraft.shown, held]
  · cases receiver with
    | none => cases owner
    | some receiver =>
      refine (mem_asked_receiver subject owner).imp (part fun snippet held => ?_)
        (.inl <| .inl ·)
      simp [PlanDraft.shown, held]

end Asked

/-- A text stands somewhere in another. -/
def Occurs (part text : String) : Prop :=
  part.toList <:+: text.toList

instance (part text : String) : Decidable (Occurs part text) :=
  inferInstanceAs (Decidable (part.toList <:+: text.toList))

namespace Occurs

variable {part text whole : String}

theorem refl (text : String) : Occurs text text :=
  List.infix_rfl

theorem trans (inner : Occurs part text) (outer : Occurs text whole) : Occurs part whole :=
  List.IsInfix.trans inner outer

theorem behind (inner : Occurs part text) (front : String) : Occurs part (front ++ text) := by
  rw [Occurs, String.toList_append]
  exact List.IsInfix.trans inner (List.suffix_append _ _).isInfix

theorem before (inner : Occurs part text) (rest : String) : Occurs part (text ++ rest) := by
  rw [Occurs, String.toList_append]
  exact List.IsInfix.trans inner (List.prefix_append _ _).isInfix

theorem middle (front part rest : String) : Occurs part (front ++ part ++ rest) :=
  ((refl part).behind front).before rest

end Occurs

/-- Every piece stands in the pieces put together. -/
theorem occurs_joinStrings {piece : String} {pieces : List String} (between : String)
    (member : piece ∈ pieces) : Occurs piece (joinStrings between pieces) := by
  rw [Occurs, joinStrings, String.toList_ofList]
  exact infix_joinWith _ (List.mem_map_of_mem member)

/-- Every stretch stands in what is written from it and others. -/
theorem occurs_writeSnippets (qualifier : PackageRef → String) {snippet : Snippet}
    {snippets : List Snippet} (member : snippet ∈ snippets) :
    Occurs (snippet.write qualifier) (writeSnippets qualifier snippets) := by
  induction snippets with
  | nil => cases member
  | cons first rest ih =>
    rw [writeSnippets]
    rcases List.mem_cons.mp member with rfl | later
    · exact (Occurs.refl _).before _
    · exact (ih later).behind _

/-- Every line stands in the text of some lines. -/
theorem occurs_renderLines {shown : Line} {lines : List Line} (member : shown ∈ lines) :
    Occurs shown.text (renderLines lines) := by
  have joined : ∀ texts : List String, ∀ text ∈ texts, Occurs text (String.join texts) := by
    intro texts
    induction texts with
    | nil => simp
    | cons first rest ih =>
      intro text member
      rw [String.join_cons]
      rcases List.mem_cons.mp member with rfl | later
      · exact (Occurs.refl _).before _
      · exact (ih text later).behind _
  exact (((Occurs.refl shown.text).behind _).before _).trans
    (joined _ _ (List.mem_map_of_mem member))

section Lines

variable (plan : TestPlan)

/-- The first line of a test names the type of its parameter. -/
theorem occurs_testing : Occurs (plan.testing ++ ".T") (renderLines plan.lines) := by
  have head : ⟨0, "func " ++ plan.testName ++ "(t *" ++ plan.testing ++ ".T) \x7b"⟩ ∈ plan.lines := by
    simp [TestPlan.lines, block, line]
  refine Occurs.trans ?_ (occurs_renderLines head)
  have cut : "func " ++ plan.testName ++ "(t *" ++ plan.testing ++ ".T) \x7b" =
      ("func " ++ plan.testName ++ "(t *") ++ (plan.testing ++ ".T") ++ ") \x7b" := by
    simp only [String.append_assoc]
    rfl
  rw [cut]
  exact Occurs.middle _ _ _

/-- The declarations of the table are lines of the test. -/
theorem occurs_declaration {declared : Line} (member : declared ∈ plan.fieldLines) :
    Occurs declared.text (renderLines plan.lines) := by
  have deeper : ∀ {body : List Line} {shown : Line}, shown ∈ body →
      ⟨shown.depth + 1, shown.text⟩ ∈ inside body := fun held => List.mem_map_of_mem held
  have table : ⟨declared.depth + 1, declared.text⟩ ∈ tableLines plan := by
    rw [tableLines_eq]
    exact List.mem_append_left _ (List.mem_append_right _ (deeper (List.mem_append_right _ member)))
  have within : ⟨declared.depth + 2, declared.text⟩ ∈ plan.lines := by
    rw [TestPlan.lines, block]
    exact List.mem_append_right _ (List.mem_append_left _ (List.mem_append_right _
      (deeper (List.mem_append_left _ table))))
  exact (occurs_renderLines within :)

/-- What a test case runs are lines of the test. -/
theorem occurs_case {run : Line} (member : run ∈ caseLines plan) :
    Occurs run.text (renderLines plan.lines) := by
  have within : ⟨run.depth + 3, run.text⟩ ∈ plan.lines := by
    rw [← List.count_pos_iff, count_lines_case]
    exact List.count_pos_iff.mpr member
  exact (occurs_renderLines within :)

/-- The line that calls the function holds its arguments. -/
theorem occurs_callArgs :
    Occurs (callArgs plan.target.args) (renderLines plan.lines) := by
  obtain ⟨front, called⟩ : ∃ front, callLine plan =
      line (front ++ callArgs plan.target.args ++ ")") := by
    rw [callLine]
    split
    · exact ⟨_, rfl⟩
    · exact ⟨_, by simp only [← String.append_assoc]; rfl⟩
  have run : ⟨0, front ++ callArgs plan.target.args ++ ")"⟩ ∈ caseLines plan := by
    rw [caseLines, called]
    simp [line]
  have stands := occurs_case plan run
  exact (Occurs.middle _ _ _).trans stands

end Lines

section Shown

variable {qualifier : PackageRef → String} {text : String} {snippet : Snippet}

/-- What is shown of a parameter occurs where its fields are declared or where it is passed. -/
theorem occurs_shown_args (heading : String) {args : List FieldDraft}
    (declared : ∀ shown ∈ paramLines heading (args.map (FieldDraft.written qualifier)),
      Occurs shown.text text)
    (passed : Occurs (callArgs (args.map (FieldDraft.written qualifier))) text)
    (member : snippet ∈ args.flatMap FieldDraft.shown) :
    Occurs (snippet.write qualifier) text := by
  obtain ⟨arg, held, within⟩ := List.mem_flatMap.mp member
  rw [FieldDraft.shown] at within
  split at within
  · -- A parameter without a field is passed by its value.
    rename_i unnamed
    refine (occurs_writeSnippets qualifier within).trans (Occurs.trans ?_ passed)
    have value : Occurs (writeSnippets qualifier arg.value) (arg.written qualifier).argument := by
      have bare : (arg.written qualifier).isNamed = false := by
        simpa [Field.isNamed, FieldDraft.written] using unnamed
      rw [Field.argument, bare, if_neg Bool.false_ne_true]
      split
      · exact (Occurs.refl _).before _
      · exact Occurs.refl _
    exact value.trans (occurs_joinStrings _ (List.mem_map_of_mem (List.mem_map_of_mem held)))
  · rename_i named
    refine (occurs_writeSnippets qualifier within).trans ?_
    have line : ⟨0, (arg.written qualifier).declaration⟩ ∈
        paramLines heading (args.map (FieldDraft.written qualifier)) := by
      have kept : arg.written qualifier ∈
          (args.map (FieldDraft.written qualifier)).filter Field.isNamed :=
        List.mem_filter.mpr ⟨List.mem_map_of_mem held,
          by simpa [Field.isNamed, FieldDraft.written] using named⟩
      rw [paramLines]
      split
      · rename_i none
        rw [none] at kept
        cases kept
      · exact List.mem_append_right _ (List.mem_flatMap.mpr ⟨_, kept, List.mem_singleton_self _⟩)
    have stands := declared _ line
    exact ((Occurs.refl _).behind _).trans stands

/-- A name behind a qualifier is written alike in types and in calls. -/
theorem qualifierText_append (qualifier name : String) :
    qualifierText qualifier ++ name = qualifiedName qualifier name := by
  rw [qualifierText, qualifiedName]
  split
  · exact String.empty_append
  · rfl

/-- What is shown of the results occurs where their fields are declared. -/
theorem occurs_shown_results {results : List FieldDraft}
    (declared : ∀ shown ∈ wantLines (results.map (FieldDraft.written qualifier)),
      Occurs shown.text text)
    (member : snippet ∈ results.flatMap FieldDraft.shownResult) :
    Occurs (snippet.write qualifier) text := by
  obtain ⟨result, held, within⟩ := List.mem_flatMap.mp member
  rw [FieldDraft.shownResult] at within
  split at within
  · cases within
  · rename_i ordinary
    obtain ⟨index, there⟩ := List.mem_iff_getElem?.mp held
    have line : ⟨0, wantName index ++ " " ++ (result.written qualifier).type⟩ ∈
        wantLines (results.map (FieldDraft.written qualifier)) := by
      refine List.mem_flatMap.mpr ⟨(index, result.written qualifier), ?_, ?_⟩
      · rw [mem_indexed, List.getElem?_map, there]
        rfl
      · dsimp only [FieldDraft.written]
        rw [if_neg ordinary]
        exact List.mem_singleton_self _
    have stands := declared _ line
    exact (occurs_writeSnippets qualifier within).trans (((Occurs.refl _).behind _).trans stands)

/-- What is shown of a receiver occurs where it is made or declared. -/
theorem occurs_shown_receiver {plan : TestPlan} {subject : PackageRef} {receiver : ReceiverDraft}
    (package : plan.package = qualifier subject)
    (owner : plan.receiver = some (receiver.written qualifier))
    (member : snippet ∈ receiver.shown subject) :
    Occurs (snippet.write qualifier) (renderLines plan.lines) := by
  have made : ∀ run ∈ receiverLines plan.package (receiver.written qualifier),
      Occurs run.text (renderLines plan.lines) := by
    intro run held
    refine occurs_case plan ?_
    rw [caseLines, owner]
    exact List.mem_append_left _ (List.mem_append_left _ (List.mem_append_left _ held))
  obtain ⟨holder, constructor⟩ := receiver
  cases constructor with
  | none =>
    -- Without a constructor the receiver is declared with its type.
    have declared := made ⟨0, "var " ++ holder.name ++ " " ++ writeSnippets qualifier holder.type⟩
      (by simp [receiverLines, ReceiverDraft.written, FieldDraft.written, line])
    exact (occurs_writeSnippets qualifier member).trans
      (((Occurs.refl _).behind _).trans declared)
  | some constructor =>
    have args : plan.constructorArgs = constructor.args.map (FieldDraft.written qualifier) := by
      rw [TestPlan.constructorArgs, owner]
      rfl
    have called := made ⟨0, _⟩ (List.mem_append_left _ (List.mem_singleton_self _))
    dsimp only [CalleeDraft.written] at called
    rcases List.mem_cons.mp member with rfl | within
    · rw [Snippet.write, ← qualifierText_append, ← package]
      have inside := Occurs.middle
        (resultNames (constructor.results.map (FieldDraft.written qualifier)) ++ " := ")
        (qualifierText plan.package ++ constructor.name)
        ("(" ++ callArgs (constructor.args.map (FieldDraft.written qualifier)) ++ ")")
      exact inside.trans (by simpa only [String.append_assoc] using called)
    · refine occurs_shown_args "// Named input parameters for receiver constructor." (fun shown held => ?_) (Occurs.trans ?_ called) within
      · refine occurs_declaration plan (List.mem_append_left _ (List.mem_append_left _ ?_))
        exact args ▸ held
      · exact Occurs.middle _ _ _

/-- A function without a receiver is called behind the qualifier of its package. -/
theorem occurs_call {plan : TestPlan} (plain : plan.receiver = none) :
    Occurs (qualifiedName plan.package plan.target.name) (renderLines plan.lines) := by
  obtain ⟨front, rest, called⟩ : ∃ front rest, callLine plan =
      line (front ++ (qualifierText plan.package ++ plan.target.name) ++ rest) := by
    rw [callLine, plain]
    split
    · exact ⟨"", _, by simp only [String.append_assoc, String.empty_append]; rfl⟩
    · exact ⟨resultNames plan.target.results ++ " := ", _, by simp only [String.append_assoc]; rfl⟩
  have run : ⟨0, front ++ (qualifierText plan.package ++ plan.target.name) ++ rest⟩ ∈
      caseLines plan := by
    rw [caseLines, called]
    simp [line]
  have stands := occurs_case plan run
  rw [← qualifierText_append]
  exact (Occurs.middle _ _ _).trans stands

/-- Whatever a test shows stands in its text. -/
theorem occurs_shown (draft : PlanDraft) (member : snippet ∈ draft.shown) :
    Occurs (snippet.write qualifier) (renderLines (draft.written qualifier).lines) := by
  generalize whole : draft.written qualifier = plan
  have target : plan.target = draft.target.written qualifier := whole ▸ rfl
  have receiver : plan.receiver = draft.receiver.map (ReceiverDraft.written qualifier) := whole ▸ rfl
  have package : plan.package = qualifier draft.subject := whole ▸ rfl
  have declared : ∀ shown ∈ paramLines "// Named input parameters for target function."
      plan.target.args, Occurs shown.text (renderLines plan.lines) := fun shown held =>
    occurs_declaration plan (List.mem_append_left _ (List.mem_append_right _ held))
  have expected : ∀ shown ∈ wantLines plan.target.results,
      Occurs shown.text (renderLines plan.lines) := fun shown held =>
    occurs_declaration plan (List.mem_append_right _ held)
  have passed := occurs_callArgs plan
  rw [target] at declared expected passed
  rw [PlanDraft.shown, List.mem_append, List.mem_append, List.mem_cons] at member
  rcases member with ((rfl | owner) | args) | results
  · have tested := occurs_testing plan
    have testing : plan.testing = qualifier .testing := whole ▸ rfl
    rw [testing] at tested
    rw [Snippet.write, String.append_assoc]
    exact tested
  · cases held : draft.receiver with
    | none =>
      rw [held] at owner receiver
      rw [List.mem_singleton.mp owner, Snippet.write, ← package]
      have called := occurs_call receiver
      rw [target] at called
      exact called
    | some maker =>
      rw [held] at owner receiver
      exact occurs_shown_receiver package receiver owner
  · exact occurs_shown_args _ declared passed args
  · exact occurs_shown_results expected results

end Shown

section Independent

variable {first second : PackageRef → String}

/-- Stretches are written alike under qualifiers that agree on the packages they name. -/
theorem writeSnippets_congr {snippets : List Snippet}
    (agree : ∀ package ∈ packagesIn snippets, first package = second package) :
    writeSnippets first snippets = writeSnippets second snippets := by
  induction snippets with
  | nil => rfl
  | cons snippet rest ih =>
    have later : ∀ package ∈ packagesIn rest, first package = second package := by
      intro package member
      obtain ⟨held, within, names⟩ := mem_packagesIn.mp member
      exact agree package (mem_packagesIn.mpr ⟨held, List.mem_cons_of_mem _ within, names⟩)
    have here : ∀ package, snippet.package? = some package → first package = second package :=
      fun package names =>
        agree package (mem_packagesIn.mpr ⟨snippet, List.mem_cons_self .., names⟩)
    rw [writeSnippets, writeSnippets, ih later]
    cases snippet with
    | text fixed => rfl
    | name package declared => rw [Snippet.write, Snippet.write, here package rfl]
    | member package declared => rw [Snippet.write, Snippet.write, here package rfl]

/-- Something behind a qualifier is not just the name of the error type. -/
theorem writeSnippets_ne_error {qualifier : PackageRef → String} {snippets : List Snippet}
    {package : PackageRef} (named : package ∈ packagesIn snippets)
    (filled : qualifier package ≠ "") : writeSnippets qualifier snippets ≠ "error" := by
  obtain ⟨snippet, held, names⟩ := mem_packagesIn.mp named
  have dotted : '.' ∈ (snippet.write qualifier).toList := by
    cases snippet with
    | text fixed => cases names
    | name package' declared =>
      cases names
      rw [Snippet.write, qualifiedName, if_neg (by simpa using filled)]
      simp
    | member package' declared => simp [Snippet.write]
  intro same
  have inside := (occurs_writeSnippets qualifier held).subset dotted
  rw [same] at inside
  exact absurd inside (by decide)

/-- Whether something is the error type can be read off under any names of its packages. -/
theorem writeSnippets_eq_error_congr {snippets : List Snippet}
    (either : ∀ package ∈ packagesIn snippets,
      first package = second package ∨ first package ≠ "" ∧ second package ≠ "") :
    (writeSnippets first snippets == "error") = (writeSnippets second snippets == "error") := by
  by_cases agree : ∀ package ∈ packagesIn snippets, first package = second package
  · rw [writeSnippets_congr agree]
  · push Not at agree
    obtain ⟨package, named, differs⟩ := agree
    obtain ⟨filled, filled'⟩ := (either package named).resolve_left differs
    rw [beq_eq_false_iff_ne.mpr (writeSnippets_ne_error named filled),
      beq_eq_false_iff_ne.mpr (writeSnippets_ne_error named filled')]

/-- Only what is shown of parameters decides how they are declared and passed. -/
theorem args_congr {args : List FieldDraft}
    (agree : ∀ package ∈ packagesIn (args.flatMap FieldDraft.shown),
      first package = second package) :
    (∀ heading, paramLines heading (args.map (FieldDraft.written first)) =
      paramLines heading (args.map (FieldDraft.written second))) ∧
    callArgs (args.map (FieldDraft.written first)) =
      callArgs (args.map (FieldDraft.written second)) := by
  have same : ∀ arg ∈ args, writeSnippets first arg.shown = writeSnippets second arg.shown := by
    intro arg held
    refine writeSnippets_congr fun package named => agree package ?_
    obtain ⟨snippet, within, names⟩ := mem_packagesIn.mp named
    exact mem_packagesIn.mpr ⟨snippet, List.mem_flatMap.mpr ⟨arg, held, within⟩, names⟩
  constructor
  · intro heading
    have kept : ∀ qualifier, (args.map (FieldDraft.written qualifier)).filter Field.isNamed =
        (args.filter fun arg => !arg.name.isEmpty).map (FieldDraft.written qualifier) :=
      fun _ => List.filter_map
    have type : ∀ arg ∈ args.filter fun arg => !arg.name.isEmpty,
        writeSnippets first arg.type = writeSnippets second arg.type := by
      intro arg held
      obtain ⟨held, named⟩ := List.mem_filter.mp held
      have text := same arg held
      rwa [FieldDraft.shown, if_neg (by simpa using named)] at text
    rw [paramLines, paramLines, kept first, kept second]
    cases named : args.filter fun arg => !arg.name.isEmpty with
    | nil => rfl
    | cons arg rest =>
      rw [List.map_cons, List.map_cons]
      dsimp only
      rw [← List.map_cons, ← List.map_cons, List.flatMap_map, List.flatMap_map]
      refine congrArg (line heading ++ ·) (List.flatMap_congr fun arg held => ?_)
      rw [FieldDraft.written, FieldDraft.written, type arg (named ▸ held)]
  · rw [callArgs, callArgs, List.map_map, List.map_map]
    refine congrArg _ (List.map_congr_left fun arg held => ?_)
    have text := same arg held
    have argument : ∀ qualifier : PackageRef → String, (arg.written qualifier).argument =
        (if arg.name.isEmpty then writeSnippets qualifier arg.value else "tt." ++ arg.name) ++
          if arg.variadic then "..." else "" := by
      intro qualifier
      have named : (arg.written qualifier).isNamed = !arg.name.isEmpty := rfl
      rw [Field.argument, named]
      cases empty : arg.name.isEmpty <;> cases spread : arg.variadic <;>
        simp [FieldDraft.written, spread]
    rw [FieldDraft.shown] at text
    rw [Function.comp_apply, Function.comp_apply, argument first, argument second]
    split at text
    · rename_i unnamed
      rw [if_pos unnamed, if_pos unnamed, text]
    · rename_i named
      rw [if_neg named, if_neg named]

/-- Elements that are changed keep their indices. -/
theorem indexed_map {α β : Type} (f : α → β) (xs : List α) :
    indexed (xs.map f) = (indexed xs).map fun (index, x) => (index, f x) := by
  refine List.ext_getElem? fun index => ?_
  rw [getElem?_indexed, List.getElem?_map, List.getElem?_map, getElem?_indexed]
  cases xs[index]? <;> rfl

/-- Only what is shown of the results decides what is expected of them. -/
theorem wantLines_congr {results : List FieldDraft}
    (agree : ∀ package ∈ packagesIn (results.flatMap FieldDraft.shownResult),
      first package = second package) :
    wantLines (results.map (FieldDraft.written first)) =
      wantLines (results.map (FieldDraft.written second)) := by
  rw [wantLines, wantLines, indexed_map, indexed_map, List.flatMap_map, List.flatMap_map]
  refine List.flatMap_congr fun entry held => ?_
  obtain ⟨index, result⟩ := entry
  have member := List.mem_of_getElem? (mem_indexed.mp held)
  have text : writeSnippets first result.shownResult = writeSnippets second result.shownResult := by
    refine writeSnippets_congr fun package named => agree package ?_
    obtain ⟨snippet, within, names⟩ := mem_packagesIn.mp named
    exact mem_packagesIn.mpr ⟨snippet, List.mem_flatMap.mpr ⟨result, member, within⟩, names⟩
  dsimp only [FieldDraft.written]
  rw [FieldDraft.shownResult] at text
  split
  · rfl
  · rename_i ordinary
    rw [if_neg ordinary] at text
    rw [text]

/-- Whether a callee ends in an error does not depend on what its packages are called. -/
theorem endsInError_congr {callee : CalleeDraft}
    (either : ∀ package ∈ callee.results.flatMap FieldDraft.asked,
      first package = second package ∨ first package ≠ "" ∧ second package ≠ "") :
    (callee.written first).endsInError = (callee.written second).endsInError := by
  have last : ∀ qualifier : PackageRef → String, (callee.written qualifier).endsInError =
      (callee.results.getLast?.map fun result =>
        writeSnippets qualifier result.type == "error").getD false := by
    intro qualifier
    rw [Callee.endsInError, CalleeDraft.written, List.getLast?_map, Option.map_map]
    rfl
  rw [last first, last second]
  cases held : callee.results.getLast? with
  | none => rfl
  | some result =>
    refine writeSnippets_eq_error_congr fun package named => either package ?_
    exact List.mem_flatMap.mpr ⟨result, List.mem_of_getLast? held, List.mem_append_left _ named⟩

/-- Results are bound to the names they are drafted with. -/
theorem resultNames_written (qualifier : PackageRef → String) (results : List FieldDraft) :
    resultNames (results.map (FieldDraft.written qualifier)) =
      joinStrings ", " (results.map FieldDraft.name) := by
  rw [resultNames, names_written]

/-- Only what is shown of a receiver decides how it is made. -/
theorem receiverLines_congr {subject : PackageRef} {receiver : ReceiverDraft}
    (agree : ∀ package ∈ packagesIn (receiver.shown subject), first package = second package)
    (either : ∀ package ∈ receiver.leftOut subject,
      first package = second package ∨ first package ≠ "" ∧ second package ≠ "") :
    receiverLines (first subject) (receiver.written first) =
      receiverLines (second subject) (receiver.written second) := by
  obtain ⟨holder, constructor⟩ := receiver
  cases constructor with
  | none =>
    have type : writeSnippets first holder.type = writeSnippets second holder.type :=
      writeSnippets_congr agree
    simp only [receiverLines, ReceiverDraft.written, FieldDraft.written, Option.map_none, type]
  | some constructor =>
    have package := agree subject (mem_packagesIn.mpr ⟨_, List.mem_cons_self .., rfl⟩)
    have args := (args_congr fun package named => agree package (by
      obtain ⟨snippet, within, names⟩ := mem_packagesIn.mp named
      exact mem_packagesIn.mpr ⟨snippet, List.mem_cons_of_mem _ within, names⟩) :
        _ ∧ callArgs (constructor.args.map (FieldDraft.written first)) = _).2
    have ends := @endsInError_congr first second constructor fun package asked =>
      either package (List.mem_append_right _ asked)
    simp only [receiverLines, ReceiverDraft.written, Option.map_some, ends, package]
    simp only [CalleeDraft.written, args, resultNames_written]

/-- What is checked and compared depends on the names of the results and on the error. -/
theorem checks_congr {callee : CalleeDraft}
    (ends : (callee.written first).endsInError = (callee.written second).endsInError) :
    errorLines (callee.written first) = errorLines (callee.written second) ∧
      comparisonLines (callee.written first) = comparisonLines (callee.written second) := by
  have compared : ∀ qualifier : PackageRef → String, comparisonLines (callee.written qualifier) =
      if callee.results.length - (if (callee.written qualifier).endsInError then 1 else 0) = 0
      then []
      else line "// TODO: update the condition below to compare got with tt.want." ++
        (indexed callee.results).flatMap fun (index, result) =>
          compareLines ⟨callee.name, [], []⟩ index ⟨result.name, "", "", false⟩ := by
    intro qualifier
    rw [comparisonLines]
    simp only [CalleeDraft.written, List.length_map, indexed_map, List.flatMap_map]
    rfl
  rw [compared first, compared second, ends]
  refine ⟨?_, rfl⟩
  rw [errorLines, errorLines, ends]
  rfl

/-- Only what a test shows decides its lines, as long as no other name appears or disappears. -/
theorem lines_congr {draft : PlanDraft}
    (agree : ∀ package ∈ packagesIn draft.shown, first package = second package)
    (either : ∀ package ∈ draft.leftOut,
      first package = second package ∨ first package ≠ "" ∧ second package ≠ "") :
    (draft.written first).lines = (draft.written second).lines := by
  have part : ∀ {snippets : List Snippet}, (∀ snippet ∈ snippets, snippet ∈ draft.shown) →
      ∀ package ∈ packagesIn snippets, first package = second package := by
    intro snippets within package named
    obtain ⟨snippet, held, names⟩ := mem_packagesIn.mp named
    exact agree package (mem_packagesIn.mpr ⟨snippet, within snippet held, names⟩)
  obtain ⟨subject, testName, target, receiver⟩ := draft
  have testing : first .testing = second .testing :=
    agree _ (mem_packagesIn.mpr ⟨_, List.mem_cons_self .., rfl⟩)
  obtain ⟨declared, passed⟩ := args_congr (part fun snippet held =>
    List.mem_append_left _ (List.mem_append_right _ held) :
      ∀ package ∈ packagesIn (target.args.flatMap FieldDraft.shown), _)
  have expected := wantLines_congr (part fun snippet held => List.mem_append_right _ held :
    ∀ package ∈ packagesIn (target.results.flatMap FieldDraft.shownResult), _)
  have ends : (target.written first).endsInError = (target.written second).endsInError := by
    refine endsInError_congr fun package asked => ?_
    rcases mem_asked_results asked with shown | leftOut
    · exact .inl (part (fun snippet held => List.mem_append_right _ held) package shown)
    · exact either package (List.mem_append_right _ leftOut)
  obtain ⟨checked, compared⟩ := checks_congr ends
  -- The receiver decides what stands in front of the call and which parameters are made.
  have owner : (∀ heading, paramLines heading
        ((PlanDraft.mk subject testName target receiver).written first).constructorArgs =
      paramLines heading
        ((PlanDraft.mk subject testName target receiver).written second).constructorArgs) ∧
      caseLines ((PlanDraft.mk subject testName target receiver).written first) =
        caseLines ((PlanDraft.mk subject testName target receiver).written second) := by
    cases receiver with
    | none =>
      have package : first subject = second subject :=
        agree _ (mem_packagesIn.mpr ⟨_, List.mem_cons_of_mem _ (List.mem_cons_self ..), rfl⟩)
      refine ⟨fun _ => rfl, ?_⟩
      simp only [caseLines, callLine, PlanDraft.written, Option.map_none, checked, compared, package]
      simp only [CalleeDraft.written, passed, resultNames_written, List.isEmpty_map]
    | some receiver =>
      have shown : ∀ package ∈ packagesIn (receiver.shown subject),
          first package = second package := part fun snippet held =>
        List.mem_append_left _ (List.mem_append_left _ (List.mem_cons_of_mem _ held))
      have maker := receiverLines_congr shown fun package leftOut =>
        either package (List.mem_append_left _ (List.mem_append_left _ leftOut))
      refine ⟨fun heading => ?_, ?_⟩
      · obtain ⟨holder, constructor⟩ := receiver
        cases constructor with
        | none => rfl
        | some constructor =>
          refine (args_congr fun package named => shown package ?_).1 heading
          obtain ⟨snippet, within, names⟩ := mem_packagesIn.mp named
          exact mem_packagesIn.mpr ⟨snippet, List.mem_cons_of_mem _ within, names⟩
      · simp only [caseLines, callLine, PlanDraft.written, Option.map_some, checked, compared, maker]
        simp only [CalleeDraft.written, passed, resultNames_written, List.isEmpty_map]
        rfl
  obtain ⟨made, run⟩ := owner
  have table : tableLines ((PlanDraft.mk subject testName target receiver).written first) =
      tableLines ((PlanDraft.mk subject testName target receiver).written second) := by
    rw [tableLines_eq, tableLines_eq, TestPlan.fieldLines, TestPlan.fieldLines, made]
    dsimp only [PlanDraft.written, CalleeDraft.written]
    rw [declared, expected]
  rw [TestPlan.lines, TestPlan.lines, table, run]
  dsimp only [PlanDraft.written]
  rw [testing]

end Independent

/-- Telling names apart asks for nothing else. -/
theorem asked_separated (draft : PlanDraft) : draft.separated.asked = draft.asked := by
  have marked : ∀ (mark : String) (args : List FieldDraft),
      (args.map (FieldDraft.marked mark)).flatMap FieldDraft.asked =
        args.flatMap FieldDraft.asked := by
    intro mark args
    rw [List.flatMap_map]
    refine List.flatMap_congr fun arg _ => ?_
    rw [FieldDraft.marked]
    split <;> rfl
  obtain ⟨subject, testName, target, receiver⟩ := draft
  cases receiver with
  | none => rfl
  | some receiver =>
    obtain ⟨holder, constructor⟩ := receiver
    cases constructor with
    | none => rfl
    | some constructor =>
      simp only [PlanDraft.asked, PlanDraft.separated, ReceiverDraft.asked, Option.map_some,
        Option.getD_some, CalleeDraft.apartFrom, CalleeDraft.asked, marked]

/-- A test refers to a path by some name: it holds something of the package behind the name. -/
def RefersTo (draft : PlanDraft) (path name test : String) : Prop :=
  ∃ snippet ∈ draft.shown, snippet.package?.map PackageRef.path = some path ∧
    Occurs (snippet.write fun _ => name) test

/--
A path is asked for without being of any use to the test.

It is only in what the test leaves out, and the test is the same whatever the package is called.
-/
structure IsIdle (draft : PlanDraft) (qualifier : PackageRef → String) (path test : String) :
    Prop where
  leftOut : ∃ package ∈ draft.leftOut, package.path = path
  same : ∀ other, other ≠ "" → renderLines (draft.written fun package =>
    if package.path = path then other else qualifier package).lines = test

/-- The text of a rendered test is that of its lines. -/
theorem renderLines_of_render {plan : TestPlan} {test : String} (rendered : plan.render = .ok test) :
    renderLines plan.lines = test := by
  obtain ⟨⟨⟩, -, written⟩ := Except.of_bind_eq_ok rendered
  cases written
  rfl

/--
An import that is added for a test is referred to, or the test has no use for it.

It is referred to exactly if its package stands in something that the test shows.
-/
theorem import_refersTo_or_idle {subject : Subject} {site : TestSite} {function : Function}
    {plan : TestPlan} {imports : List Import} {test : String}
    (planned : planTest subject site function = .ok (plan, imports))
    (rendered : plan.render = .ok test) :
    ∃ draft extra, IsDrafted subject site function draft extra ∧ imports = neededImports extra ∧
      ∀ path chosen, (path, chosen) ∈ extra →
        (path ∈ (packagesIn draft.separated.shown).map PackageRef.path →
          RefersTo draft.separated path chosen.name test) ∧
        (path ∉ (packagesIn draft.separated.shown).map PackageRef.path → chosen.name ≠ "" →
          IsIdle draft.separated ((viewpointOf subject site).qualifiersIn extra) path test) := by
  obtain ⟨draft, extra, drafted, rfl, rfl⟩ := planTest_eq_ok planned
  have text := renderLines_of_render rendered
  have sound := drafted.sound
  refine ⟨draft, extra, drafted, rfl, fun path chosen noted => ?_⟩
  have name := sound.qualifierOf noted
  refine ⟨fun shown => ?_, fun hidden filled => ⟨?_, fun other given => ?_⟩⟩
  · obtain ⟨package, named, rfl⟩ := List.mem_map.mp shown
    obtain ⟨snippet, held, names⟩ := mem_packagesIn.mp named
    refine ⟨snippet, held, by rw [names]; rfl, ?_⟩
    have written : snippet.write ((viewpointOf subject site).qualifiersIn extra) =
        snippet.write fun _ => chosen.name := by
      cases snippet with
      | text fixed => rfl
      | name package' declared =>
        cases names
        exact congrArg (qualifiedName · declared) name
      | member package' declared =>
        cases names
        exact congrArg (· ++ "." ++ declared) name
    exact written ▸ text ▸ occurs_shown draft.separated held
  · obtain ⟨none, absurd⟩ | ⟨⟨package, asked, same⟩, -⟩ :=
      ((viewpointOf subject site).exists_mem_foldl_noting draft.asked [] path).mp
        ⟨chosen, drafted.noted ▸ noted⟩
    · cases absurd
    · rw [← asked_separated] at asked
      rcases PlanDraft.mem_asked asked with shown | leftOut
      · exact absurd (List.mem_map.mpr ⟨package, shown, same⟩) hidden
      · exact ⟨package, leftOut, same⟩
  · rw [← text]
    refine lines_congr (fun package shown => ?_) (fun package leftOut => ?_) |> congrArg renderLines
    · exact if_neg fun same => hidden (List.mem_map.mpr ⟨package, shown, same⟩)
    · by_cases same : package.path = path
      · refine .inr ⟨by rwa [if_pos same], ?_⟩
        rw [Viewpoint.qualifiersIn, same, name]
        exact filled
      · exact .inl (if_neg same)

theorem import_refersTo_oneFunction : ∃ subject site function plan imports test,
    planTest subject site function = .ok (plan, imports) ∧ plan.render = .ok test ∧
    ∃ draft extra, imports = neededImports extra ∧
      ∀ path chosen, (path, chosen) ∈ extra → RefersTo draft path chosen.name test := by
  obtain ⟨package, subject, function, -, -, -, bare, ref, imports⟩ := opened_oneFunction
  have view : viewpointOf subject ⟨.fresh ⟨"p_test.go"⟩ "", .external, []⟩ =
      ⟨⟨"m", "p"⟩, true, [], []⟩ := by
    rw [viewpointOf, ref, imports]
    rfl
  obtain ⟨plan, needed, test, planned, rendered⟩ := planTest_bare bare view rfl
  obtain ⟨draft, extra, drafted, whole, referred⟩ := import_refersTo_or_idle planned rendered
  refine ⟨subject, _, function, plan, needed, test, planned, rendered, draft.separated, extra, whole,
    fun path chosen noted => (referred path chosen noted).1 ?_⟩
  -- Only the package for tests and the tested one are asked for, and both are shown.
  obtain ⟨-, alone, plain, asked⟩ := drafted.of_bare bare
  obtain ⟨none, absurd⟩ | ⟨⟨package, member, same⟩, -⟩ :=
    (Viewpoint.exists_mem_foldl_noting _ _ [] path).mp ⟨chosen, drafted.noted ▸ noted⟩
  · cases absurd
  · obtain ⟨tested, title, target, receiver⟩ := draft
    dsimp only at alone plain
    subst alone plain
    exact List.mem_map.mpr ⟨package, member, same⟩

/-- A module with a function that takes a moment without looking at it. -/
def momentFunction : FileTree :=
  ⟨[(⟨"go.mod"⟩, "module m"), (⟨"p.go"⟩,
    "package p\nimport \"time\"\nfunc F(_ *time.Time) {}")]⟩

/-- Whether a function only takes an unnamed reference to a moment. -/
def takesMoment (receiver : Option Var) (signature : Signature) : Bool :=
  match receiver, signature with
  | none, ⟨[⟨name, .pointer (.named ⟨package, "Time", [], _⟩)⟩], [], false⟩ =>
    name == "_" && package == ⟨"time", "time"⟩
  | _, _ => false

/-- A parameter that is passed by its zero value has its package imported and nowhere mentioned. -/
theorem unused_import_moment : ∃ found,
    plannedAt momentFunction ⟨⟨"p.go"⟩, .point ⟨2, 6⟩⟩ = .ok found ∧
    (∃ needed ∈ found.imports, needed.path = "time") ∧
    ∀ shown ∈ found.plan.lines, ¬Occurs "time." shown.text := by
  obtain ⟨found, located, checked⟩ := exists_plannedAt momentFunction ⟨⟨"p.go"⟩, .point ⟨2, 6⟩⟩
    (fun found => found.subject.package.ref == ⟨"m", "p"⟩ &&
      found.subject.imports == [("time", ⟨"time", false⟩)] && found.site.imports == [] &&
      found.site.package == .external && found.site.destination.functionNames == [] &&
      found.function.name == "F" && takesMoment found.function.receiver found.function.signature)
    (by decide +kernel)
  simp only [Bool.and_eq_true, beq_iff_eq] at checked
  obtain ⟨⟨⟨⟨⟨⟨ref, fileImports⟩, siteImports⟩, outside⟩, fresh⟩, called⟩, takes⟩ := checked
  obtain ⟨draft, extra, drafted, whole, needed⟩ := planTest_eq_ok (planTest_of_plannedAt located)
  have view : viewpointOf found.subject found.site =
      ⟨⟨"m", "p"⟩, true, [], [("time", ⟨"time", false⟩)]⟩ := by
    rw [viewpointOf, ref, fileImports, siteImports, outside]
    rfl
  obtain ⟨subject, site, ⟨functionName, owner, receiver, signature, file, start⟩, plan, imports⟩ :=
    found
  dsimp only at ref fresh called takes view whole needed drafted ⊢
  unfold takesMoment at takes
  split at takes
  · rename_i name package shape
    simp only [Bool.and_eq_true, beq_iff_eq] at takes
    obtain ⟨rfl, rfl⟩ := takes
    obtain ⟨title, choice, titled, chosen, rfl⟩ := drafted.drafted
    cases chosen
    subst called
    have exported : Go.isExported "F" = true := by decide +kernel
    rw [testName, Function.isExported, exported] at titled
    cases titled
    -- The type of the parameter is asked for, and its zero value is passed.
    have type : typeSnippets (.pointer (.named ⟨⟨"time", "time"⟩, "Time", [], shape⟩)) =
        [.text "*", .name ⟨"time", "time"⟩ "Time"] := by
      simp only [typeSnippets, ResolvedType.pieces, NamedType.pieces, List.map_cons, List.map_nil,
        Snippet.ofPiece]
    have zero : zeroSnippets (.pointer (.named ⟨⟨"time", "time"⟩, "Time", [], shape⟩)) =
        [.text "nil"] := by
      rw [zeroSnippets, ResolvedType.zeroPieces, ResolvedType.zeroForm]
      rfl
    have param : paramDrafts ⟨[⟨"_", .pointer (.named ⟨⟨"time", "time"⟩, "Time", [], shape⟩)⟩],
        [], false⟩ = [⟨"", [.text "*", .name ⟨"time", "time"⟩ "Time"], [.text "nil"], false⟩] := by
      rw [← type, ← zero]
      rfl
    have noted : extra = [("m", ⟨"p", false⟩), ("testing", ⟨"testing", false⟩),
        ("time", ⟨"time", false⟩)] := by
      rw [drafted.noted, view, ref]
      change ([PackageRef.testing, ⟨"m", "p"⟩] ++ ((paramDrafts _).flatMap FieldDraft.asked ++ []) ++
        []).foldl _ [] = _
      rw [param]
      decide +kernel
    have same : plan.lines = (TestPlan.mk "testing" "p" "TestF"
        ⟨"F", [⟨"", "", "nil", false⟩], []⟩ none).lines := by
      rw [whole, view, noted, ref, fresh]
      change ((PlanDraft.mk ⟨"m", "p"⟩ "TestF" ⟨"F", paramDrafts _, []⟩ none).written _).lines = _
      rw [param]
      rfl
    have imported : (⟨"time", none⟩ : Import) ∈ imports := by
      rw [needed, noted]
      decide
    refine ⟨_, located, ⟨_, imported, rfl⟩, ?_⟩
    rw [same]
    unfold Occurs
    decide +kernel
  · cases takes

end Scaffold
