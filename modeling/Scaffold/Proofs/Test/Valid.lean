import Scaffold.Proofs.Go.Resolved
import Scaffold.Proofs.Test.Origins

/-! The types in a test are valid ones, if its package leaves nothing in doubt. -/

namespace Scaffold

open Go

/-- All that a test of a resolved function writes of the function is valid. -/
theorem isValid_of_mem_shownTypes {function : Function} (resolved : function.isResolved = true)
    {type : ResolvedType} (member : type ∈ function.shownTypes) : type.isValid = true := by
  obtain ⟨name, package, receiver, ⟨params, results, variadic⟩, file, start⟩ := function
  rw [Go.Function.isResolved, Bool.and_eq_true, Signature.isValid, Bool.and_eq_true] at resolved
  obtain ⟨held, taken, given⟩ := resolved
  have each : ∀ {vars : List Var}, validVars vars = true →
      ∀ var ∈ vars, var.type.isValid = true := by
    intro vars valid
    induction vars with
    | nil => simp
    | cons var rest ih =>
      obtain ⟨name, type⟩ := var
      rw [validVars, Bool.and_eq_true] at valid
      exact List.forall_mem_cons.mpr ⟨valid.1, ih valid.2⟩
  rcases List.mem_append.mp member with base | listed
  · cases receiver with
    | none => cases base
    | some receiver =>
      obtain rfl := List.mem_singleton.mp base
      -- Without its pointer, a type is as valid as with it.
      have same : receiver.type.withoutPointer.isValid = receiver.type.isValid := by
        cases receiver.type <;> rfl
      rw [same]
      exact held
  · obtain ⟨var, among, rfl⟩ := List.mem_map.mp listed
    rcases List.mem_append.mp among with param | result
    · exact each taken var param
    · exact each given var result

/-- A field that is written for a valid type: with that type, and with a value of it or none. -/
def Field.ShowsValid (qualifier : PackageRef → String) (field : Field) : Prop :=
  ∃ type : ResolvedType, type.isValid = true ∧
    field.type = writeSnippets qualifier (typeSnippets type) ∧
    (field.value = "" ∨ field.value = writeSnippets qualifier (zeroSnippets type) ∨
      field.value = writeSnippets qualifier backgroundSnippets)

/-- All fields of a test are written for valid types, if the functions of its package are
resolved. -/
theorem showsValid_of_isResolved {subject : Subject} {site : TestSite} {function : Function}
    {plan : TestPlan} {imports : List Import}
    (resolved : ∀ function ∈ subject.package.functions, function.isResolved = true)
    (member : function ∈ subject.package.functions)
    (planned : planTest subject site function = .ok (plan, imports)) :
    ∃ extra, imports = neededImports extra ∧ ∀ field ∈ plan.fields,
      field.ShowsValid ((viewpointOf subject site).qualifiersIn extra) := by
  obtain ⟨draft, extra, drafted, rfl, rfl⟩ := planTest_eq_ok planned
  obtain ⟨name, choice, -, chosen, rfl⟩ := drafted.drafted
  refine ⟨extra, rfl, fun field written => ?_⟩
  rw [PlanDraft.fields_written] at written
  obtain ⟨marked, among, rfl⟩ := List.mem_map.mp written
  obtain ⟨original, drafted, mark, rfl⟩ := PlanDraft.mem_fields_separated among
  obtain ⟨source, either, type, shown, typed, valued⟩ := isFor_of_mem_planDraft chosen drafted
  -- The field is of the tested function, or of one that makes its receiver.
  have known : source.isResolved = true := by
    rcases either with rfl | constructor
    · exact resolved _ member
    · exact resolved _ (mem_functions_of_plain constructor)
  refine ⟨type, isValid_of_mem_shownTypes known shown, ?_, ?_⟩
  -- A mark changes the name only.
  · rw [FieldDraft.written, FieldDraft.type_marked, typed]
  · rw [FieldDraft.written, FieldDraft.value_marked]
    rcases valued with none | zero | background
    · exact .inl (by rw [none]; rfl)
    · exact .inr (.inl (by rw [zero]))
    · exact .inr (.inr (by rw [background]))

/-- In a package without errors every type is resolved, and a test shows valid types only, exactly
as far as nothing is left in doubt without a report: a name that several dot imports may bring in,
or a type set of its own where a type is expected. -/
theorem resolved_of_leaveNoDoubt {metadata : Metadata} {files : List SourceFile}
    (quiet : (Package.ofFiles metadata files).errors = []) :
    ((∀ function ∈ (Package.ofFiles metadata files).functions, function.isResolved = true) ↔
      LeaveNoDoubt metadata.deps files) ∧
    (LeaveNoDoubt metadata.deps files → ∀ path subject site range function plan imports,
      openSubject (Package.ofFiles metadata files) path = .ok subject →
      targetOf subject range = .ok function →
      planTest subject site function = .ok (plan, imports) →
      ∃ extra, imports = neededImports extra ∧ ∀ field ∈ plan.fields,
        field.ShowsValid ((viewpointOf subject site).qualifiersIn extra)) := by
  refine ⟨isResolved_iff_leaveNoDoubt quiet, ?_⟩
  intro closed path subject site range function plan imports opened target planned
  obtain ⟨same, -⟩ := openSubject_eq_ok opened
  refine showsValid_of_isResolved ?_ (mem_functions_of_targetOf target) planned
  rw [same]
  exact (isResolved_iff_leaveNoDoubt quiet).mpr closed

/-- A file with a function that takes a number. -/
def numberFile : SourceFile :=
  .ofText ⟨"/ws/p/p.go"⟩ "package p\n\nfunc F(x int) \x7b\x7d\n"

/-- A site for new tests of that file. -/
def numberSite : TestSite :=
  ⟨.fresh ⟨"/ws/p/p_test.go"⟩ "", .external, []⟩

theorem resolved_of_leaveNoDoubt_number :
    LeaveNoDoubt metadataOfTwo.deps [numberFile] ∧ ∃ subject function plan imports,
      openSubject (Package.ofFiles metadataOfTwo [numberFile]) ⟨"/ws/p/p.go"⟩ = .ok subject ∧
      targetOf subject (.point ⟨2, 5⟩) = .ok function ∧
      planTest subject numberSite function = .ok (plan, imports) ∧
      ∃ extra, imports = neededImports extra ∧ ∀ field ∈ plan.fields,
        field.ShowsValid ((viewpointOf subject numberSite).qualifiersIn extra) := by
  -- The file is resolved without errors, and then leaves no doubt.
  have quiet : (Package.ofFiles metadataOfTwo [numberFile]).errors = [] := by decide +kernel
  obtain ⟨resolved, shows⟩ := resolved_of_leaveNoDoubt quiet
  have closed : LeaveNoDoubt metadataOfTwo.deps [numberFile] := by
    refine resolved.mp (List.all_eq_true.mp ?_)
    decide +kernel
  have checked : (match openSubject (Package.ofFiles metadataOfTwo [numberFile]) ⟨"/ws/p/p.go"⟩ with
    | .error _ => false
    | .ok subject => match targetOf subject (.point ⟨2, 5⟩) with
      | .error _ => false
      | .ok function => (planTest subject numberSite function).isOk) = true := by decide +kernel
  split at checked
  · cases checked
  rename_i subject opened
  split at checked
  · cases checked
  rename_i function target
  obtain ⟨⟨plan, imports⟩, planned⟩ := Except.exists_of_isOk checked
  exact ⟨closed, subject, function, plan, imports, opened, target, planned,
    shows closed _ _ _ _ _ _ _ opened target planned⟩

/-- A module with a function whose parameter is a set of types, which no type can be. -/
def typeSetFunction : FileTree :=
  ⟨[(⟨"go.mod"⟩, "module m"), (⟨"p.go"⟩,
    "package p\nfunc F(x interface\x7b ~int \x7d) \x7b\x7d")]⟩

/-- Whether the only parameter is an interface around something that is no type. -/
def takesTypeSet (name : String) (signature : Signature) : Bool :=
  match signature with
  | ⟨[⟨param, .interface [.embedded (.invalid _)]⟩], [], false⟩ => param == name
  | _ => false

/-- A set of types is not reported where a type is expected, and its place in a test is filled
with no type. -/
theorem invalid_shown_typeSet : ∃ found,
    plannedAt typeSetFunction ⟨⟨"p.go"⟩, .point ⟨1, 6⟩⟩ = .ok found ∧
    found.subject.package.isBroken = false ∧ found.subject.package.errors = [] ∧
    found.function.isResolved = false ∧
    found.plan.target.args = [⟨"x", "interface\x7binvalid type\x7d", "", false⟩] := by
  obtain ⟨found, located, checked⟩ := exists_plannedAt typeSetFunction
    ⟨⟨"p.go"⟩, .point ⟨1, 6⟩⟩
    (fun found => !found.subject.package.isBroken && found.subject.package.errors.isEmpty &&
      !found.function.isResolved && takesTypeSet "x" found.function.signature)
    (by decide +kernel)
  simp only [Bool.and_eq_true, Bool.not_eq_true', List.isEmpty_iff] at checked
  obtain ⟨⟨⟨unbroken, quiet⟩, unresolved⟩, takes⟩ := checked
  refine ⟨found, located, unbroken, quiet, unresolved, ?_⟩
  obtain ⟨draft, extra, drafted, whole, -⟩ := planTest_eq_ok (planTest_of_plannedAt located)
  -- The only argument is written for the interface around what is no type.
  unfold takesTypeSet at takes
  split at takes
  · rename_i param text signature
    obtain rfl := eq_of_beq takes
    have type : typeSnippets (.interface [.embedded (.invalid text)]) =
        [.text "interface\x7b", .text "invalid type", .text "\x7d"] := by
      simp [typeSnippets, ResolvedType.pieces, elemPieces, InterfaceElem.pieces, Snippet.ofPiece]
    have drafts : paramDrafts ⟨[⟨"x", .interface [.embedded (.invalid text)]⟩], [], false⟩ =
        [⟨"x", typeSnippets (.interface [.embedded (.invalid text)]), [], false⟩] := rfl
    rw [whole, args_of_planned drafted, signature, drafts, type]
    rfl
  · cases takes

end Scaffold
