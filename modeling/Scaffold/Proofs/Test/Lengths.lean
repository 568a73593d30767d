import Scaffold.Proofs.Go.Lengths
import Scaffold.Proofs.Test.Results
import Scaffold.Proofs.Test.Shown

/-! Lengths of arrays are written into a test as they stand in the source, and import nothing. -/

namespace Scaffold

open Go

/-- Pieces are written in a test as they are elsewhere. -/
theorem toList_writeSnippets (qualifier : PackageRef → String) (pieces : List Piece) :
    (writeSnippets qualifier (pieces.map Snippet.ofPiece)).toList = charsOf qualifier pieces := by
  induction pieces with
  | nil => rfl
  | cons piece rest ih =>
    rw [charsOf, List.flatMap_cons, ← charsOf, ← ih, List.map_cons, writeSnippets,
      String.toList_append]
    cases piece <;> rfl

theorem packagesIn_ofPiece (pieces : List Piece) :
    packagesIn (pieces.map Snippet.ofPiece) = packagesOf pieces := by
  induction pieces with
  | nil => rfl
  | cons piece rest ih =>
    cases piece with
    | text fixed => exact ih
    | name package name => exact congrArg (package :: ·) ih

section Asked

variable (change : String → String)

/-- What a parameter asks for does not depend on the lengths in its type. -/
theorem asked_paramDraft (isFirst : Bool) (param : Var) :
    (paramDraft isFirst ⟨param.name, param.type.mapLengths change⟩).asked =
      (paramDraft isFirst param).asked := by
  simp only [paramDraft, isContext_mapLengths]
  split
  · simp [FieldDraft.asked, typeSnippets, packagesIn_ofPiece, packagesOf_mapLengths]
  · split <;> simp [FieldDraft.asked, typeSnippets, zeroSnippets, packagesIn_ofPiece,
      packagesOf_mapLengths, packagesOf_zeroPieces]

theorem asked_paramDraftsFrom (variadic : Bool) (index : Nat) (params : List Var) :
    (paramDraftsFrom variadic index (mapVarLengths change params)).flatMap FieldDraft.asked =
      (paramDraftsFrom variadic index params).flatMap FieldDraft.asked := by
  rw [mapVarLengths_eq]
  induction params generalizing index with
  | nil => rfl
  | cons param rest ih =>
    have first := asked_paramDraft change (index == 0) param
    rw [List.map_cons, paramDraftsFrom, paramDraftsFrom, List.flatMap_cons, List.flatMap_cons, ih]
    exact congrArg (· ++ _) first

theorem asked_resultDraftsFrom (name : Nat → Bool → String) (index : Nat) (results : List Var) :
    (resultDraftsFrom name index (mapVarLengths change results)).flatMap FieldDraft.asked =
      (resultDraftsFrom name index results).flatMap FieldDraft.asked := by
  rw [mapVarLengths_eq]
  induction results generalizing index with
  | nil => rfl
  | cons result rest ih =>
    rw [List.map_cons, resultDraftsFrom, resultDraftsFrom, List.flatMap_cons, List.flatMap_cons, ih]
    simp [FieldDraft.asked, typeSnippets, packagesIn_ofPiece, packagesOf_mapLengths]

/-- What the plan of a test asks for does not depend on the lengths in the signature. -/
theorem asked_planDraft (subject : PackageRef) (testName : String) (function : Function)
    (choice : Option ReceiverChoice) :
    (planDraft subject testName (function.mapLengths change) choice).asked =
      (planDraft subject testName function choice).asked := by
  obtain ⟨name, package, receiver, ⟨params, results, variadic⟩, file, start⟩ := function
  have count : (mapVarLengths change results).length = results.length := by
    rw [mapVarLengths_eq, List.length_map]
  have target : (targetDraft
      (Function.mapLengths change ⟨name, package, receiver, ⟨params, results, variadic⟩, file, start⟩)).asked =
        (targetDraft ⟨name, package, receiver, ⟨params, results, variadic⟩, file, start⟩).asked := by
    simp only [targetDraft, CalleeDraft.asked, Function.mapLengths, Signature.mapLengths, paramDrafts,
      asked_paramDraftsFrom, asked_resultDraftsFrom, count]
  rw [planDraft, planDraft, PlanDraft.asked, PlanDraft.asked, target]

end Asked

/-- A test whose draft is known is planned by writing it. -/
theorem IsDrafted.planTest_eq {subject : Subject} {site : TestSite} {function : Function}
    {draft : PlanDraft} {extra : ImportSet} (drafted : IsDrafted subject site function draft extra) :
    planTest subject site function = .ok
      (draft.separated.written ((viewpointOf subject site).qualifiersIn extra),
        neededImports extra) := by
  obtain ⟨⟨name, choice, named, chosen, rfl⟩, visible, rfl⟩ := drafted
  -- Writing the plan notes exactly the imports that the draft asks for.
  have run := (Viewpoint.Writes.writePlan (viewpointOf subject site)
    (uniqueTestName name site.destination.functionNames) function choice).run []
  have written := congrArg (fun written : TestPlan × ImportSet =>
    (.ok (written.1.separated, neededImports written.2) : Except Failure _)) run
  rw [PlanDraft.written_separated, planTest]
  cases outside : (viewpointOf subject site).external with
  | false =>
    rw [outside] at chosen
    simp only [named, chosen, Bool.false_eq_true, if_false]
    exact written
  | true =>
    rw [outside] at chosen
    simp only [visible outside, named, chosen, if_true]
    exact written

/-- A text shows the lengths of a type as they stand in it, whatever they mention. -/
def ShowsLengths (text : String) (type : ResolvedType) : Prop :=
  ∀ length, HasLength length type → Occurs ("[" ++ length ++ "]") text

/-- A type shows its lengths however it is qualified. -/
theorem showsLengths_typeSnippets (qualifier : PackageRef → String) (type : ResolvedType) :
    ShowsLengths (writeSnippets qualifier (typeSnippets type)) type := by
  intro length has
  have text : ("[" ++ length ++ "]").toList = '[' :: length.toList ++ [']'] := by
    rw [String.toList_append, String.toList_append]
    rfl
  rw [Occurs, typeSnippets, toList_writeSnippets, text]
  exact (has.standsIn qualifier).whole

section Shown

variable (qualifier : PackageRef → String)

theorem showsLengths_paramDraftsFrom (variadic : Bool) (index : Nat) (params : List Var) :
    List.Forall₂ (fun param field => ShowsLengths field.type param.type) params
      ((paramDraftsFrom variadic index params).map (FieldDraft.written qualifier)) := by
  induction params generalizing index with
  | nil => exact .nil
  | cons param rest ih =>
    -- However a parameter is passed, its field has its type.
    have type : (paramDraft (index == 0) param).type = typeSnippets param.type := by
      rw [paramDraft]
      split
      · rfl
      · split <;> rfl
    refine .cons ?_ (ih (index + 1))
    rw [FieldDraft.written, type]
    exact showsLengths_typeSnippets qualifier param.type

theorem showsLengths_resultDraftsFrom (name : Nat → Bool → String) (index : Nat)
    (results : List Var) :
    List.Forall₂ (fun result field => ShowsLengths field.type result.type) results
      ((resultDraftsFrom name index results).map (FieldDraft.written qualifier)) := by
  induction results generalizing index with
  | nil => exact .nil
  | cons result rest ih =>
    exact .cons (showsLengths_typeSnippets qualifier result.type) (ih (index + 1))

end Shown

/--
Lengths of arrays stand in a test as they stand in the source, without a qualifier.

Whatever they mention, the same imports are added.
-/
theorem lengths_verbatim {subject : Subject} {site : TestSite} {function : Function}
    {plan : TestPlan} {imports : List Import}
    (planned : planTest subject site function = .ok (plan, imports)) :
    List.Forall₂ (fun param field => ShowsLengths field.type param.type)
      function.signature.params plan.target.args ∧
    List.Forall₂ (fun result field => ShowsLengths field.type result.type)
      function.signature.results plan.target.results ∧
    ∀ change, ∃ other, planTest subject site (function.mapLengths change) = .ok (other, imports) := by
  obtain ⟨draft, extra, drafted, rfl, rfl⟩ := planTest_eq_ok planned
  obtain ⟨⟨name, choice, named, chosen, rfl⟩, visible, noted⟩ := drafted
  refine ⟨showsLengths_paramDraftsFrom _ _ _ _, showsLengths_resultDraftsFrom _ _ _ _,
    fun change => ?_⟩
  -- The changed function has the same draft but for its lengths, and asks for the same imports.
  have other : IsDrafted subject site (function.mapLengths change)
      (planDraft subject.package.ref (uniqueTestName name site.destination.functionNames)
        (function.mapLengths change) choice) extra :=
    ⟨⟨name, choice, named, chosen, rfl⟩, visible, by rw [asked_planDraft, noted]⟩
  exact ⟨_, other.planTest_eq⟩

/-- A module with a function that takes as many numbers as a constant says. -/
def constantFunction : FileTree :=
  ⟨[(⟨"go.mod"⟩, "module m"), (⟨"p.go"⟩, "package p\nconst N = 4\nfunc F(a [N]int) {}")]⟩

/-- Whether the only parameter is an array of numbers. -/
def takesNumbers (name length : String) (signature : Signature) : Bool :=
  match signature with
  | ⟨[⟨param, .array size (.basic "int")⟩], [], false⟩ => param == name && size == length
  | _ => false

theorem lengths_verbatim_constant : ∃ found,
    plannedAt constantFunction ⟨⟨"p.go"⟩, .point ⟨2, 6⟩⟩ = .ok found ∧
    (∀ field ∈ found.plan.target.args, Occurs "[N]" field.type) ∧
    ∃ other, planTest found.subject found.site (found.function.mapLengths fun _ => "M") =
      .ok (other, found.imports) := by
  obtain ⟨found, located, checked⟩ := exists_plannedAt constantFunction
    ⟨⟨"p.go"⟩, .point ⟨2, 6⟩⟩ (fun found => takesNumbers "a" "N" found.function.signature)
    (by decide +kernel)
  obtain ⟨args, -, changed⟩ := lengths_verbatim (planTest_of_plannedAt located)
  refine ⟨found, located, ?_, changed _⟩
  unfold takesNumbers at checked
  split at checked
  · rename_i param size signature
    simp only [Bool.and_eq_true, beq_iff_eq] at checked
    obtain ⟨-, rfl⟩ := checked
    rw [signature] at args
    obtain ⟨field, others, shows, none, same⟩ := List.forall₂_cons_left_iff.mp args
    obtain rfl := List.forall₂_nil_left_iff.mp none
    intro other member
    rw [same, List.mem_singleton] at member
    exact member ▸ shows "N" (.here _)
  · cases checked

/-- A constant in a length is not qualified in a test outside the package that declares it. -/
theorem length_unqualified_constant : ∃ found,
    plannedAt constantFunction ⟨⟨"p.go"⟩, .point ⟨2, 6⟩⟩ = .ok found ∧
    found.site.package = .external ∧ found.plan.package = "p" ∧
    found.plan.target.args = [⟨"a", "[N]int", "", false⟩] := by
  obtain ⟨found, located, checked⟩ := exists_plannedAt constantFunction
    ⟨⟨"p.go"⟩, .point ⟨2, 6⟩⟩
    (fun found => found.site.package == .external && found.plan.package == "p" &&
      takesNumbers "a" "N" found.function.signature) (by decide +kernel)
  simp only [Bool.and_eq_true, beq_iff_eq] at checked
  obtain ⟨⟨outside, qualifier⟩, takes⟩ := checked
  refine ⟨found, located, outside, qualifier, ?_⟩
  obtain ⟨draft, extra, drafted, whole, -⟩ := planTest_eq_ok (planTest_of_plannedAt located)
  obtain ⟨name, choice, -, -, rfl⟩ := drafted.drafted
  have args : found.plan.target.args = (paramDrafts found.function.signature).map
      (FieldDraft.written ((viewpointOf found.subject found.site).qualifiersIn extra)) := by
    rw [whole]
    rfl
  unfold takesNumbers at takes
  split at takes
  · rename_i param size signature
    simp only [Bool.and_eq_true, beq_iff_eq] at takes
    obtain ⟨rfl, rfl⟩ := takes
    have type : typeSnippets (.array "N" (.basic "int")) =
        [.text "[", .text "N", .text "]", .text "int"] := by
      simp [typeSnippets, ResolvedType.pieces, Snippet.ofPiece]
    have drafts : paramDrafts ⟨[⟨"a", .array "N" (.basic "int")⟩], [], false⟩ =
        [⟨"a", [.text "[", .text "N", .text "]", .text "int"], [], false⟩] := by
      rw [← type]
      rfl
    rw [args, signature, drafts]
    rfl
  · cases takes

end Scaffold
