import Scaffold.Proofs.Test.Prepared
import Scaffold.Proofs.Test.Shown

/-! Which names of the tested package a test outside it shows, and which of them it can see. -/

namespace Scaffold

open Go

/-- The name of the package at some path that a stretch of a test holds. -/
def Snippet.nameFrom? (path : String) : Snippet → Option String
  | .text _ => none
  | .name package declared | .member package declared =>
    if package.path = path then some declared else none

/-- Whether all names of the package at some path can be used outside it. -/
def AreVisible (path : String) (snippets : List Snippet) : Prop :=
  ∀ snippet ∈ snippets, ∀ name ∈ snippet.nameFrom? path, isExported name = true

/-- Whether a type is written with names that can be used outside the package at some path. -/
def Go.ResolvedType.IsVisible (path : String) (type : ResolvedType) : Prop :=
  AreVisible path (typeSnippets type)

/-- Whether a test writes the type of a parameter, and not just a value that does without it. -/
def Go.Var.isWritten (isFirst : Bool) (param : Var) : Bool :=
  if isFirst && param.type.isContext then false
  else if param.name.isEmpty || param.name == "_" then
    match param.type.zeroForm with
    | .literal _ => false
    | .composite | .allocated => true
  else true

/-- The types that a test writes for parameters from some index on. -/
def writtenParams (index : Nat) : List Var → List ResolvedType
  | [] => []
  | param :: rest =>
    (if param.isWritten (index == 0) then [param.type] else []) ++ writtenParams (index + 1) rest

/-- The types that a test writes for results: those of all but a last error. -/
def writtenResults : List Var → List ResolvedType
  | [] => []
  | [last] => if last.type.isError then [] else [last.type]
  | result :: next :: rest => result.type :: writtenResults (next :: rest)

/-- The arguments of a defined type. -/
def Go.ResolvedType.args : ResolvedType → List ResolvedType
  | .named type => type.args
  | _ => []

/-- The types that a test writes for a receiver, but for the name of the receiver's own type. -/
def ReceiverChoice.writtenTypes (choice : ReceiverChoice) : List ResolvedType :=
  match choice.constructor with
  | some made => writtenParams 0 made.signature.params
  | none => choice.base.args

/-- The types that a test of a function writes, but for the name of its receiver type. -/
def Go.Function.writtenTypes (function : Function) (choice : Option ReceiverChoice) :
    List ResolvedType :=
  (choice.map ReceiverChoice.writtenTypes).getD []
    ++ writtenParams 0 function.signature.params ++ writtenResults function.signature.results

/-- The functions that a test calls: the tested one, and the one that makes its receiver. -/
def Go.Function.calls (function : Function) (choice : Option ReceiverChoice) : List Function :=
  function :: (choice.bind ReceiverChoice.constructor).toList

section Stretches

variable {path : String} {first second : List Snippet}

@[simp] theorem areVisible_nil (path : String) : AreVisible path [] := by
  intro snippet member
  cases member

@[simp] theorem areVisible_append :
    AreVisible path (first ++ second) ↔ AreVisible path first ∧ AreVisible path second :=
  List.forall_mem_append

theorem areVisible_cons {snippet : Snippet} : AreVisible path (snippet :: first) ↔
    (∀ name ∈ snippet.nameFrom? path, isExported name = true) ∧ AreVisible path first :=
  List.forall_mem_cons

/-- Fixed text holds no name. -/
@[simp] theorem areVisible_text {fixed : String} :
    AreVisible path (.text fixed :: first) ↔ AreVisible path first := by
  rw [areVisible_cons]
  exact and_iff_right (by rintro name ⟨⟩)

/-- A name that can be used outside its package takes nothing of the others. -/
theorem areVisible_name {package : PackageRef} {name : String} (exported : isExported name = true) :
    AreVisible path (.name package name :: first) ↔ AreVisible path first := by
  rw [areVisible_cons]
  refine and_iff_right fun held among => ?_
  obtain rfl := Option.mem_some_iff.mp (Option.mem_ite_none_right.mp among).2
  exact exported

theorem areVisible_member {package : PackageRef} {name : String}
    (exported : isExported name = true) :
    AreVisible path (.member package name :: first) ↔ AreVisible path first := by
  rw [areVisible_cons]
  refine and_iff_right fun held among => ?_
  obtain rfl := Option.mem_some_iff.mp (Option.mem_ite_none_right.mp among).2
  exact exported

end Stretches

section Drafts

variable {path : String}

/-- A parameter shows its type exactly if a test writes that. -/
theorem areVisible_paramDraft (isFirst : Bool) (param : Var) :
    AreVisible path (paramDraft isFirst param).shown ↔
      (param.isWritten isFirst = true → param.type.IsVisible path) := by
  have background : AreVisible path backgroundSnippets := by
    rw [backgroundSnippets, areVisible_member (by decide)]
    simp
  unfold paramDraft Go.Var.isWritten
  split
  -- A context is made by a call.
  · simpa [FieldDraft.shown] using background
  split
  -- A zero value holds its type around or before it, or does without.
  · rw [FieldDraft.shown, if_pos (by rfl), zeroSnippets, Go.ResolvedType.zeroPieces]
    cases param.type.zeroForm with
    | literal text => simp [Snippet.ofPiece]
    | composite => simp [Snippet.ofPiece, Go.ResolvedType.IsVisible, typeSnippets]
    | allocated => simp [Snippet.ofPiece, Go.ResolvedType.IsVisible, typeSnippets]
  · rename_i named
    have filled : param.name.isEmpty = false := by
      rw [Bool.or_eq_true, not_or] at named
      exact Bool.eq_false_iff.mpr named.1
    simp [FieldDraft.shown, filled, Go.ResolvedType.IsVisible]

/-- Parameters show the types that a test writes for them. -/
theorem areVisible_paramDraftsFrom (path : String) (variadic : Bool) (params : List Var) (index : Nat) :
    AreVisible path ((paramDraftsFrom variadic index params).flatMap FieldDraft.shown) ↔
      ∀ type ∈ writtenParams index params, type.IsVisible path := by
  induction params generalizing index with
  | nil => simp [paramDraftsFrom, writtenParams]
  | cons param rest ih =>
    rw [paramDraftsFrom, List.flatMap_cons, areVisible_append, ih, writtenParams,
      List.forall_mem_append]
    -- Whether the last one is spread does not matter to what is shown.
    refine and_congr ((areVisible_paramDraft (index == 0) param).trans ?_) Iff.rfl
    cases param.isWritten (index == 0) <;> simp

/-- Results show the types that a test writes for them: a last error is just a flag. -/
theorem areVisible_resultDraftsFrom (path : String) {count : Nat} (results : List Var) (index : Nat)
    (counted : index + results.length = count) :
    AreVisible path ((resultDraftsFrom (fun place isError => gotName place count isError) index
      results).flatMap FieldDraft.shownResult) ↔
      ∀ type ∈ writtenResults results, type.IsVisible path := by
  induction results generalizing index with
  | nil => simp [resultDraftsFrom, writtenResults]
  | cons result rest ih =>
    have shown : AreVisible path (FieldDraft.shownResult
        ⟨gotName index count result.type.isError, typeSnippets result.type, [], false⟩) ↔
        (¬(index + 1 = count ∧ result.type.isError = true) → result.type.IsVisible path) := by
      rw [FieldDraft.shownResult, ← gotName_eq_gotErr_iff]
      split
      · rename_i flag
        have named : gotName index count result.type.isError = "gotErr" := eq_of_beq flag
        simp [named]
      · rename_i other
        have named : gotName index count result.type.isError ≠ "gotErr" :=
          fun same => other (beq_iff_eq.mpr same)
        simp [named, Go.ResolvedType.IsVisible]
    rw [resultDraftsFrom, List.flatMap_cons, areVisible_append, shown,
      ih (index + 1) (by rw [← counted, List.length_cons]; omega)]
    rw [List.length_cons] at counted
    cases rest with
    | nil =>
      have last : index + 1 = count := by simpa using counted
      cases flag : result.type.isError <;> simp [writtenResults, flag, last]
    | cons next later =>
      -- With results behind it, it is not the last one.
      have inner : index + 1 ≠ count := by
        rw [List.length_cons] at counted
        omega
      simp [writtenResults, inner]

/-- The name of a receiver type leads what is written of it, and its arguments follow. -/
theorem areVisible_base {base : ResolvedType} {name : String}
    (declared : base.declaredName? = some name) (exported : isExported name = true) :
    AreVisible path (typeSnippets base) ↔ ∀ type ∈ base.args, type.IsVisible path := by
  have listed : ∀ types : List ResolvedType,
      AreVisible path ((argPieces types).map Snippet.ofPiece) ↔
        ∀ type ∈ types, type.IsVisible path := by
    intro types
    induction types with
    | nil => simp [argPieces]
    | cons first rest ih =>
      cases rest with
      | nil => simp [argPieces, Go.ResolvedType.IsVisible, typeSnippets]
      | cons next later =>
        rw [argPieces, List.map_append, List.map_cons, areVisible_append, Snippet.ofPiece,
          areVisible_text, ih, List.forall_mem_cons (a := first)]
        exact Iff.rfl
  cases base with
  | named type =>
    obtain ⟨package, own, args, shape⟩ := type
    cases declared
    cases args with
    | nil => simp [typeSnippets, Go.ResolvedType.pieces, NamedType.pieces, Snippet.ofPiece,
        areVisible_name exported, Go.ResolvedType.args]
    | cons first rest =>
      have written := listed (first :: rest)
      simp only [typeSnippets, Go.ResolvedType.pieces, NamedType.pieces, List.map_cons,
        List.map_append, Snippet.ofPiece, List.cons_append]
      rw [areVisible_name exported, areVisible_text, areVisible_append, written]
      simp [Go.ResolvedType.args]
  | aliased package own target =>
    cases declared
    simp [typeSnippets, Go.ResolvedType.pieces, Snippet.ofPiece, areVisible_name exported,
      Go.ResolvedType.args]
  | _ => cases declared

end Drafts

/-- Marks on names change nothing of what is shown. -/
theorem PlanDraft.shown_separated (draft : PlanDraft) : draft.separated.shown = draft.shown := by
  have marked : ∀ (mark : String) (field : FieldDraft), (field.marked mark).shown = field.shown := by
    intro mark field
    unfold FieldDraft.marked
    split
    · rfl
    · rename_i filled
      -- A name with a mark in front of it is not empty either.
      have still : (mark ++ field.name).isEmpty = false := by
        rw [String.isEmpty_eq_false_iff] at *
        simp_all
      simp [FieldDraft.shown, still, Bool.eq_false_iff.mpr filled]
  obtain ⟨subject, testName, target, receiver⟩ := draft
  cases receiver with
  | none => rfl
  | some receiver =>
    obtain ⟨holder, constructor⟩ := receiver
    cases constructor with
    | none => rfl
    | some callee =>
      have same : (callee.apartFrom target.args).args.flatMap FieldDraft.shown =
          callee.args.flatMap FieldDraft.shown := by
        rw [CalleeDraft.apartFrom, List.flatMap_map]
        exact List.flatMap_congr fun field _ => marked _ field
      simp only [PlanDraft.shown, PlanDraft.separated, Option.map_some, ReceiverDraft.shown, same]
      rfl

/-- What a test from outside may call: an exported function, on an exported type. -/
theorem checkVisibility_eq_ok {function : Function} {package : String}
    (visible : checkVisibility function package = .ok ()) : function.isExported = true ∧
      ∀ base, function.receiverBase? = some base →
        ∃ name, base.declaredName? = some name ∧ isExported name = true := by
  unfold checkVisibility at visible
  split at visible
  · cases visible
  rename_i exported
  refine ⟨by simpa using exported, fun base held => ?_⟩
  have method : function.isMethod = true := by
    rw [Function.receiverBase?, Option.map_eq_some_iff] at held
    obtain ⟨receiver, found, -⟩ := held
    rw [Function.isMethod, found]
    rfl
  rw [if_pos method] at visible
  obtain ⟨name, found, visible⟩ := Except.of_bind_eq_ok visible
  have declared : function.receiverTypeName? = some name := by
    rw [receiverTypeName] at found
    split at found
    · cases found
      assumption
    · cases found
  rw [Function.receiverTypeName?, held] at declared
  refine ⟨name, declared, ?_⟩
  split at visible
  · assumption
  · cases visible

/-- A function that makes receivers outside of its package is exported. -/
theorem isExported_of_isConstructorFor {function : Function} {wanted : NamedType}
    (makes : isConstructorFor function wanted true = true) : function.isExported = true := by
  unfold isConstructorFor at makes
  split at makes
  · cases makes
  · rename_i open_
    simp only [Bool.true_and, Bool.or_eq_true, not_or, Bool.not_eq_true', Bool.not_eq_false] at open_
    exact open_.2

/--
A test outside the package calls only what is exported, on types that are.

Beyond that, it shows names that are not exported exactly if types that it writes hold such names.
-/
theorem areVisible_of_drafted {subject : Subject} {site : TestSite} {function : Function}
    {draft : PlanDraft} {extra : ImportSet} (drafted : IsDrafted subject site function draft extra)
    (outside : site.package = .external) : ∃ choice,
      chooseReceiver subject.package.plainFunctions function true = .ok choice ∧
      (∀ called ∈ function.calls choice, called.isExported = true) ∧
      (∀ base, function.receiverBase? = some base →
        ∃ name, base.declaredName? = some name ∧ isExported name = true) ∧
      ∀ path, AreVisible path draft.separated.shown ↔
        ∀ type ∈ function.writtenTypes choice, type.IsVisible path := by
  have external : (viewpointOf subject site).external = true := by
    simp [viewpointOf, outside]
  obtain ⟨exported, owner⟩ := checkVisibility_eq_ok (drafted.visible external)
  obtain ⟨name, choice, -, chosen, rfl⟩ := drafted.drafted
  rw [external] at chosen
  have testing : isExported "T" = true := by decide
  have maker : ∀ made ∈ choice.bind ReceiverChoice.constructor, made.isExported = true := by
    intro made among
    obtain ⟨found, rfl, held⟩ := Option.bind_eq_some_iff.mp among
    obtain ⟨-, wanted, makes⟩ := (chooseReceiver_eq_ok chosen found rfl).constructor made held
    exact isExported_of_isConstructorFor makes
  refine ⟨choice, chosen, ?_, owner, fun path => ?_⟩
  · intro called among
    rcases List.mem_cons.mp among with rfl | made
    · exact exported
    · exact maker called (Option.mem_toList.mp made)
  have args := areVisible_paramDraftsFrom path function.signature.variadic
    function.signature.params 0
  have results := areVisible_resultDraftsFrom path function.signature.results 0
    (Nat.zero_add _)
  rw [PlanDraft.shown_separated, PlanDraft.shown, areVisible_append, areVisible_append,
    areVisible_member testing, Go.Function.writtenTypes, List.forall_mem_append,
    List.forall_mem_append]
  -- What is shown of the receiver differs; the parameters and the results come behind it.
  refine and_congr (and_congr ?_ args) results
  cases choice with
  | none =>
    show AreVisible path [.name subject.package.ref function.name] ↔ _
    rw [areVisible_name exported]
    simp
  | some found =>
    have made := chooseReceiver_eq_ok chosen found rfl
    obtain ⟨declared, own, visible⟩ := owner _ made.base
    obtain ⟨holder, base, constructor⟩ := found
    cases constructor with
    | none => exact areVisible_base own visible
    | some other =>
      show AreVisible path (.name subject.package.ref other.name :: _) ↔ _
      rw [areVisible_name (maker other rfl)]
      exact areVisible_paramDraftsFrom path other.signature.variadic other.signature.params 0

/-- A test that is added is planned, and its text is that of the plan. -/
theorem planned_of_addTest {tree : FileTree} {setting : Option String} {location : Location}
    {changes : List Change} (added : addTest (tree.workspace setting) location = .ok changes) :
    ∃ found test, plannedAt tree location = .ok found ∧ found.plan.render = .ok test ∧
      found.site.destination.changes test found.imports setting = .ok changes := by
  rw [addTest_eq_plannedAt] at added
  obtain ⟨found, located, written⟩ := Except.of_bind_eq_ok added
  rw [writeTest] at written
  split at written
  · cases written
  · exact ⟨found, _, located, ‹_›, written⟩

/--
A test that is added outside its package calls and makes only what is exported.

The names of the package that stand in it can all be seen from there exactly if each type that it
writes of the parameters, the results and the receiver's arguments is made of exported names.
-/
theorem names_visible_iff {tree : FileTree} {setting : Option String} {location : Location}
    {changes : List Change} (added : addTest (tree.workspace setting) location = .ok changes) :
    ∃ found test draft extra, plannedAt tree location = .ok found ∧
      found.site.destination.changes test found.imports setting = .ok changes ∧
      IsDrafted found.subject found.site found.function draft extra ∧
      (∀ snippet ∈ draft.separated.shown, Occurs
        (snippet.write ((viewpointOf found.subject found.site).qualifiersIn extra)) test) ∧
      (found.site.package = .external → ∃ choice,
        chooseReceiver found.subject.package.plainFunctions found.function true = .ok choice ∧
        (∀ called ∈ found.function.calls choice, called.isExported = true) ∧
        (∀ base, found.function.receiverBase? = some base →
          ∃ name, base.declaredName? = some name ∧ isExported name = true) ∧
        (AreVisible found.subject.package.ref.path draft.separated.shown ↔
          ∀ type ∈ found.function.writtenTypes choice,
            type.IsVisible found.subject.package.ref.path)) := by
  obtain ⟨found, test, located, rendered, made⟩ := planned_of_addTest added
  obtain ⟨draft, extra, drafted, whole, -⟩ := planTest_eq_ok (planTest_of_plannedAt located)
  refine ⟨found, test, draft, extra, located, made, drafted, ?_, ?_⟩
  · intro snippet member
    rw [← renderLines_of_render rendered, whole]
    exact occurs_shown draft.separated member
  · intro outside
    obtain ⟨choice, chosen, called, owner, visible⟩ := areVisible_of_drafted drafted outside
    exact ⟨choice, chosen, called, owner, visible _⟩

/-- A module with a function of an exported type and one of a type that is not exported. -/
def twoTypes : FileTree :=
  ⟨[(⟨"go.mod"⟩, "module m"), (⟨"p.go"⟩,
    "package p\ntype T int\ntype t int\nfunc F(x T) \x7b\x7d\nfunc G(x t) \x7b\x7d")]⟩

/-- Whether a function takes just a value of a defined type of some package and name. -/
def Go.Function.takesNamed (function : Function) (package : PackageRef) (name : String) : Bool :=
  match function with
  | ⟨_, _, none, ⟨[⟨param, .named ⟨owner, own, [], _⟩⟩], [], false⟩, _, _⟩ =>
    param == "x" && owner == package && own == name
  | _ => false

/-- What a function is that takes just a value of a defined type. -/
theorem Go.Function.eq_of_takesNamed {function : Function} {package : PackageRef} {name : String}
    (takes : function.takesNamed package name = true) : function.receiver = none ∧ ∃ shape,
      function.signature = ⟨[⟨"x", .named ⟨package, name, [], shape⟩⟩], [], false⟩ := by
  unfold Go.Function.takesNamed at takes
  split at takes
  · simp only [Bool.and_eq_true, beq_iff_eq] at takes
    obtain ⟨⟨rfl, rfl⟩, rfl⟩ := takes
    exact ⟨rfl, _, rfl⟩
  · cases takes

/-- The one name in the test of the function of the exported type can be seen. -/
theorem names_visible_twoTypes : ∃ changes found, ∃ draft : PlanDraft,
    addTest (twoTypes.workspace none) ⟨⟨"p.go"⟩, .point ⟨3, 6⟩⟩ = .ok changes ∧
    plannedAt twoTypes ⟨⟨"p.go"⟩, .point ⟨3, 6⟩⟩ = .ok found ∧
    found.function.takesNamed ⟨"m", "p"⟩ "T" = true ∧ found.site.package = .external ∧
    AreVisible found.subject.package.ref.path draft.separated.shown := by
  obtain ⟨found, located, checked⟩ := exists_plannedAt twoTypes ⟨⟨"p.go"⟩, .point ⟨3, 6⟩⟩
    (fun found => found.subject.package.ref == ⟨"m", "p"⟩ &&
      found.function.takesNamed ⟨"m", "p"⟩ "T" && found.site.package == .external)
    (by decide +kernel)
  simp only [Bool.and_eq_true, beq_iff_eq] at checked
  obtain ⟨⟨ref, takes⟩, outside⟩ := checked
  have apart : found.subject.package.ref.path ≠ "testing" := by
    rw [ref]
    decide
  obtain ⟨changes, added⟩ := exists_addTest located apart none
  obtain ⟨found', test, draft, extra, same, -, -, -, visible⟩ := names_visible_iff added
  obtain rfl := Except.ok.inj (same.symm.trans located)
  obtain ⟨choice, chosen, -, -, iff⟩ := visible outside
  refine ⟨changes, _, draft, added, located, takes, outside, iff.mpr fun type member => ?_⟩
  obtain ⟨plain, shape, signature⟩ := Go.Function.eq_of_takesNamed takes
  -- Without a receiver there is nothing to make, and the one type is that of the parameter.
  rw [chooseReceiver, plain] at chosen
  cases chosen
  have only : type = .named ⟨⟨"m", "p"⟩, "T", [], shape⟩ := by
    rw [Go.Function.writtenTypes, signature] at member
    exact List.mem_singleton.mp member
  have exported : isExported "T" = true := by decide +kernel
  rw [only]
  refine (areVisible_base rfl exported).mpr ?_
  simp [Go.ResolvedType.args]

/-- A test outside the package names the type of a parameter that cannot be seen from there. -/
theorem hidden_name_twoTypes : ∃ changes found test,
    addTest (twoTypes.workspace none) ⟨⟨"p.go"⟩, .point ⟨4, 6⟩⟩ = .ok changes ∧
    plannedAt twoTypes ⟨⟨"p.go"⟩, .point ⟨4, 6⟩⟩ = .ok found ∧
    found.plan.render = .ok test ∧ found.site.package = .external ∧
    found.plan.package = "p" ∧ found.plan.target.args = [⟨"x", "p.t", "", false⟩] ∧
    Occurs "p.t" test ∧ isExported "t" = false := by
  obtain ⟨found, located, checked⟩ := exists_plannedAt twoTypes ⟨⟨"p.go"⟩, .point ⟨4, 6⟩⟩
    (fun found => found.subject.package.ref == ⟨"m", "p"⟩ && found.site.package == .external &&
      found.plan.package == "p" && found.function.takesNamed ⟨"m", "p"⟩ "t")
    (by decide +kernel)
  simp only [Bool.and_eq_true, beq_iff_eq] at checked
  obtain ⟨⟨⟨ref, outside⟩, package⟩, takes⟩ := checked
  have apart : found.subject.package.ref.path ≠ "testing" := by
    rw [ref]
    decide
  obtain ⟨changes, added⟩ := exists_addTest located apart none
  obtain ⟨found', test, same, rendered, -⟩ := planned_of_addTest added
  obtain rfl := Except.ok.inj (same.symm.trans located)
  obtain ⟨draft, extra, drafted, whole, -⟩ := planTest_eq_ok (planTest_of_plannedAt located)
  obtain ⟨plain, shape, signature⟩ := Go.Function.eq_of_takesNamed takes
  -- The tested package is called as its qualifier says, and so is the package of the type.
  have called : (viewpointOf found'.subject found'.site).qualifiersIn extra ⟨"m", "p"⟩ = "p" := by
    obtain ⟨name, choice, -, -, rfl⟩ := drafted.drafted
    rw [whole] at package
    rw [← ref]
    exact package
  have drafts : paramDrafts found'.function.signature =
      [⟨"x", [.name ⟨"m", "p"⟩ "t"], [], false⟩] := by
    rw [signature]
    simp [paramDrafts, paramDraftsFrom, paramDraft, Go.ResolvedType.isContext, typeSnippets,
      Go.ResolvedType.pieces, NamedType.pieces, Snippet.ofPiece]
  have typed : Snippet.write ((viewpointOf found'.subject found'.site).qualifiersIn extra)
      (.name ⟨"m", "p"⟩ "t") = "p.t" := by
    rw [Snippet.write, called]
    decide
  have shown : .name ⟨"m", "p"⟩ "t" ∈ draft.separated.shown := by
    obtain ⟨name, choice, -, -, rfl⟩ := drafted.drafted
    rw [PlanDraft.shown_separated, PlanDraft.shown]
    refine List.mem_append_left _ (List.mem_append_right _ ?_)
    show _ ∈ (paramDrafts found'.function.signature).flatMap FieldDraft.shown
    rw [drafts]
    exact List.mem_singleton_self _
  refine ⟨changes, _, test, added, located, rendered, outside, package, ?_, ?_, by decide +kernel⟩
  · rw [whole, args_of_planned drafted, drafts]
    show [(⟨"x", _ ++ "", "", false⟩ : Field)] = _
    rw [typed, String.append_empty]
  · have held : Occurs (Snippet.write ((viewpointOf found'.subject found'.site).qualifiersIn extra)
        (.name ⟨"m", "p"⟩ "t")) _ := occurs_shown draft.separated shown
    rw [typed, ← whole, renderLines_of_render rendered] at held
    exact held

end Scaffold
