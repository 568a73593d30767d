import Scaffold.Proofs.Go.Spelled
import Scaffold.Proofs.Test.Bound
import Scaffold.Proofs.Test.Origins

/-! Plans that can be written: each plan for a function with names and types that are not empty. -/

namespace Scaffold

open Go

/-- A field with a type, and with either a name or a value. -/
structure Field.IsComplete (field : Field) : Prop where
  type : field.type ≠ ""
  either : field.name = "" ↔ field.value ≠ ""

/-- A receiver with a typed variable, and made by nothing or by what gives results. -/
structure Receiver.IsComplete (receiver : Receiver) : Prop where
  name : receiver.holder.name ≠ ""
  type : receiver.holder.type ≠ ""
  results : ∀ callee ∈ receiver.constructor, callee.results ≠ []
  args : ∀ callee ∈ receiver.constructor, ∀ arg ∈ callee.args, arg.IsComplete

/-- A plan that says all that has to be written. -/
structure TestPlan.IsComplete (plan : TestPlan) : Prop where
  testName : plan.testName ≠ ""
  called : plan.target.name ≠ ""
  testing : plan.testing ≠ ""
  args : ∀ arg ∈ plan.target.args, arg.IsComplete
  receiver : ∀ receiver ∈ plan.receiver, receiver.IsComplete

section Checks

theorem checkField_eq_ok_iff {owner : String} {field : Field} :
    checkField owner field = .ok () ↔ field.IsComplete := by
  obtain ⟨name, type, value, variadic⟩ := field
  unfold checkField
  split
  · rename_i untyped
    refine ⟨nofun, fun complete => ?_⟩
    exact absurd (String.isEmpty_iff.mp untyped) complete.type
  · rename_i typed
    split
    · rename_i same
      refine ⟨nofun, fun complete => ?_⟩
      have either := complete.either
      rw [beq_iff_eq, Bool.eq_iff_iff, String.isEmpty_iff, String.isEmpty_iff] at same
      tauto
    · rename_i differ
      -- Name and value are not both there or both missing, so the one is empty if the other is not.
      refine ⟨fun _ => ⟨by simpa using typed, ?_⟩, fun _ => rfl⟩
      rw [beq_iff_eq, Bool.eq_iff_iff, String.isEmpty_iff, String.isEmpty_iff] at differ
      tauto

theorem checkArgs_eq_ok_iff {callee : Callee} :
    checkArgs callee = .ok () ↔ ∀ arg ∈ callee.args, arg.IsComplete := by
  obtain ⟨name, args, results⟩ := callee
  change args.forM (checkField name) = .ok () ↔ ∀ arg ∈ args, arg.IsComplete
  induction args with
  | nil => exact ⟨fun _ => by simp, fun _ => rfl⟩
  | cons arg rest ih =>
    rw [List.forall_mem_cons, ← ih, ← checkField_eq_ok_iff]
    -- The first argument is checked, and then the others.
    constructor
    · intro both
      obtain ⟨⟨⟩, first, others⟩ := Except.of_bind_eq_ok both
      exact ⟨first, others⟩
    · rintro ⟨first, others⟩
      change (checkField name arg >>= fun _ => rest.forM (checkField name)) = .ok ()
      rw [first]
      exact others

theorem checkReceiver_eq_ok_iff {receiver : Receiver} :
    checkReceiver receiver = .ok () ↔ receiver.IsComplete := by
  obtain ⟨⟨name, type, value, variadic⟩, constructor⟩ := receiver
  unfold checkReceiver
  split
  · rename_i missing
    refine ⟨nofun, fun complete => ?_⟩
    rw [Bool.or_eq_true, String.isEmpty_iff, String.isEmpty_iff] at missing
    exact absurd missing (not_or.mpr ⟨complete.name, complete.type⟩)
  · rename_i given
    rw [Bool.or_eq_true, String.isEmpty_iff, String.isEmpty_iff, not_or] at given
    cases constructor with
    | none => exact ⟨fun _ => ⟨given.1, given.2, by simp, by simp⟩, fun _ => rfl⟩
    | some callee =>
      change checkConstructor callee = .ok () ↔ _
      -- With a constructor, its results and its arguments are looked at.
      unfold checkConstructor
      split
      · rename_i empty
        refine ⟨nofun, fun complete => ?_⟩
        exact absurd (List.isEmpty_iff.mp empty) (complete.results callee rfl)
      · rename_i some
        rw [checkArgs_eq_ok_iff]
        refine ⟨fun args => ⟨given.1, given.2, ?_, ?_⟩, fun complete => complete.args callee rfl⟩
        · simpa using some
        · simpa using args

/-- The check of a plan passes exactly the complete ones. -/
theorem TestPlan.check_eq_ok_iff {plan : TestPlan} : plan.check = .ok () ↔ plan.IsComplete := by
  obtain ⟨testing, package, testName, target, receiver⟩ := plan
  -- Of the steps of the check, the first that fails gives its error.
  have steps : TestPlan.check ⟨testing, package, testName, target, receiver⟩ =
      if testName.isEmpty || target.name.isEmpty then .error .missingName
      else if testing.isEmpty then .error .missingTesting
      else checkArgs target >>= fun _ => (receiver.map checkReceiver).getD (.ok ()) := by
    rw [TestPlan.check]
    cases receiver <;> split <;> rfl
  rw [steps]
  split
  · rename_i missing
    refine ⟨nofun, fun complete => ?_⟩
    rw [Bool.or_eq_true, String.isEmpty_iff, String.isEmpty_iff] at missing
    exact absurd missing (not_or.mpr ⟨complete.testName, complete.called⟩)
  rename_i named
  rw [Bool.or_eq_true, String.isEmpty_iff, String.isEmpty_iff, not_or] at named
  split
  · rename_i missing
    refine ⟨nofun, fun complete => ?_⟩
    exact absurd (String.isEmpty_iff.mp missing) complete.testing
  rename_i imported
  have qualified : testing ≠ "" := fun empty => imported (String.isEmpty_iff.mpr empty)
  constructor
  · intro passed
    obtain ⟨⟨⟩, args, held⟩ := Except.of_bind_eq_ok passed
    refine ⟨named.1, named.2, qualified, checkArgs_eq_ok_iff.mp args, fun found among => ?_⟩
    cases among
    exact checkReceiver_eq_ok_iff.mp held
  · intro complete
    rw [checkArgs_eq_ok_iff.mpr complete.args]
    cases receiver with
    | none => rfl
    | some receiver => exact checkReceiver_eq_ok_iff.mpr (complete.receiver receiver rfl)

end Checks

section Written

variable {qualifier : PackageRef → String} {type : ResolvedType}

/-- What is written is not empty if some stretch of it is not. -/
theorem writeSnippets_ne {snippets : List Snippet} {snippet : Snippet} (member : snippet ∈ snippets)
    (shown : snippet.write qualifier ≠ "") : writeSnippets qualifier snippets ≠ "" := by
  induction snippets with
  | nil => cases member
  | cons first rest ih =>
    rw [writeSnippets, Ne, String.append_eq_empty_iff, not_and_or]
    rcases List.mem_cons.mp member with rfl | later
    · exact .inl shown
    · exact .inr (ih later)

theorem qualifiedName_ne {before name : String} (named : name ≠ "") :
    qualifiedName before name ≠ "" := by
  unfold qualifiedName
  split
  · exact named
  · simp [named]

/-- A spelled type is not written as nothing. -/
theorem write_type_ne (spelled : type.IsSpelled) :
    writeSnippets qualifier (typeSnippets type) ≠ "" := by
  rw [typeSnippets]
  -- Each type begins with something that is not empty.
  cases type with
  | basic name | param name =>
    rw [ResolvedType.pieces]
    exact writeSnippets_ne List.mem_cons_self (ne_of_isName spelled)
  | named type =>
    obtain ⟨package, name, args, shape⟩ := type
    rw [ResolvedType.pieces]
    cases args <;> rw [NamedType.pieces] <;>
      exact writeSnippets_ne List.mem_cons_self (qualifiedName_ne (ne_of_isName spelled))
  | aliased package name target =>
    rw [ResolvedType.pieces]
    exact writeSnippets_ne List.mem_cons_self (qualifiedName_ne (ne_of_isName spelled))
  | chan dir elem =>
    rw [ResolvedType.pieces]
    refine writeSnippets_ne List.mem_cons_self ?_
    cases dir <;> simp [Snippet.ofPiece, Snippet.write, ChanDir.opening]
  | _ =>
    rw [ResolvedType.pieces]
    exact writeSnippets_ne List.mem_cons_self (by simp [Snippet.ofPiece, Snippet.write])

theorem basicZero_ne {name text : String} (zero : basicZero name = .literal text) : text ≠ "" := by
  unfold basicZero at zero
  split at zero
  · cases zero; simp
  · split at zero
    · cases zero; simp
    · split at zero <;> cases zero
      simp

/-- A literal that stands for a zero value is not empty. -/
theorem text_ne_of_zeroForm {text : String} (zero : type.zeroForm = .literal text) : text ≠ "" := by
  fun_induction ResolvedType.zeroForm type with
  | case1 name => exact basicZero_ne zero
  | case2 | case3 | case4 | case5 | case6 | case7 | case8 | case9 =>
    cases zero
    simp
  | case10 | case11 => cases zero
  -- A defined type has the zero value of the shape that is behind it.
  | case12 type =>
    unfold Shape.zeroForm at zero
    split at zero
    · cases zero
    · cases zero
    · exact basicZero_ne zero
    · cases zero; simp
    · cases zero
  | case13 package name target ih => exact ih zero
  | case14 | case15 => cases zero

/-- A zero value is not written as nothing. -/
theorem write_zero_ne (type : ResolvedType) :
    writeSnippets qualifier (zeroSnippets type) ≠ "" := by
  -- Each form of a zero value has some fixed text in it.
  have shown : ∃ text, text ≠ "" ∧ Piece.text text ∈ type.zeroPieces := by
    unfold ResolvedType.zeroPieces
    split
    · rename_i text zero
      exact ⟨text, text_ne_of_zeroForm zero, List.mem_singleton_self _⟩
    · exact ⟨"\x7b\x7d", by simp, List.mem_append_right _ (List.mem_singleton_self _)⟩
    · exact ⟨"*new(", by simp, List.mem_cons_self⟩
  obtain ⟨text, some, member⟩ := shown
  exact writeSnippets_ne (List.mem_map_of_mem member) some

theorem write_background_ne : writeSnippets qualifier backgroundSnippets ≠ "" :=
  writeSnippets_ne (List.mem_cons_of_mem _ List.mem_cons_self) (by simp [Snippet.write])

/-- The argument for a parameter of a spelled type is complete, whatever its name is marked with. -/
theorem isComplete_paramDraft {param : Var} (spelled : param.type.IsSpelled)
    (isFirst isSpread : Bool) (mark : String) :
    ((FieldDraft.marked mark { paramDraft isFirst param with variadic := isSpread }).written
      qualifier).IsComplete := by
  -- A context and a zero value go without a name; a name goes without a value.
  have typed : writeSnippets qualifier (typeSnippets param.type) ≠ "" := write_type_ne spelled
  unfold paramDraft
  split
  · exact ⟨typed, fun _ => write_background_ne, fun _ => rfl⟩
  · split
    · exact ⟨typed, fun _ => write_zero_ne param.type, fun _ => rfl⟩
    · rename_i named
      have some : param.name.isEmpty = false := by
        simp only [Bool.or_eq_true, not_or, Bool.not_eq_true] at named
        exact named.1
      refine ⟨by simpa [FieldDraft.written] using typed, ?_⟩
      simp [FieldDraft.marked, some, FieldDraft.written, writeSnippets,
        String.isEmpty_eq_false_iff.mp some]

end Written

section Names

/-- A receiver has a variable with a name. -/
theorem receiverVariable_ne (declared typeName : String) :
    receiverVariable declared typeName ≠ "" := by
  -- A candidate is only usable if it is not empty, and the default is not empty either.
  have first : ∀ (usable : String → Bool), (∀ name, usable name = true → name ≠ "") →
      ∀ names : List String, (names.find? usable).getD defaultReceiverName ≠ "" := by
    intro usable some names
    cases found : names.find? usable with
    | none => simp [defaultReceiverName]
    | some name => exact some name (List.find?_some found)
  refine first _ (fun name usable => ?_) _
  simp only [Bool.and_eq_true, Bool.not_eq_true', String.isEmpty_eq_false_iff] at usable
  exact usable.1.1

theorem uniqueTestName_ne {base : String} (named : base ≠ "") (existing : List String) :
    uniqueTestName base existing ≠ "" := by
  unfold uniqueTestName
  split
  · split
    · simp [named]
    · exact named
  · exact named

theorem testName_ne {function : Function} {name : String} (named : testName function = .ok name) :
    name ≠ "" := by
  have led : ∀ exported : Bool, (if exported then "Test" else "Test_") ≠ "" := by decide
  unfold testName at named
  split at named
  · obtain ⟨receiver, -, named⟩ := Except.of_bind_eq_ok named
    cases named
    simp [led]
  · cases named
    simp [led]

/-- What makes a receiver gives results. -/
theorem results_ne_of_isConstructorFor {function : Function} {wanted : NamedType} {external : Bool}
    (makes : isConstructorFor function wanted external = true) :
    function.signature.results ≠ [] := by
  intro none
  simp [isConstructorFor, none] at makes

end Names

section Plans

variable {function : Function} {qualifier : PackageRef → String}

theorem Go.ResolvedType.IsSpelled.withoutPointer {type : ResolvedType} (spelled : type.IsSpelled) :
    type.withoutPointer.IsSpelled := by
  cases type <;> exact spelled

/-- The arguments for a spelled function are complete, whatever their names are marked with. -/
theorem isComplete_of_mem_paramDrafts (spelled : function.IsSpelled) {draft : FieldDraft}
    (member : draft ∈ paramDrafts function.signature) (mark : String) :
    ((draft.marked mark).written qualifier).IsComplete := by
  obtain ⟨param, listed, isFirst, isSpread, rfl⟩ := mem_paramDraftsFrom member
  exact isComplete_paramDraft (spelled.signature param (List.mem_append_left _ listed)) _ _ _

/-- The receiver of a spelled function is complete if it is made by spelled functions only. -/
theorem isComplete_receiverDraft {functions : List Function} {external : Bool}
    {choice : ReceiverChoice} (chosen : choice.IsFor functions function external)
    (spelled : function.IsSpelled) (others : ∀ other ∈ functions, other.IsSpelled)
    (taken : List FieldDraft) :
    (ReceiverDraft.written qualifier { receiverDraft choice with
      constructor := (receiverDraft choice).constructor.map fun callee =>
        callee.apartFrom taken }).IsComplete := by
  -- The variable is named after the declared receiver or its type, and has that type.
  obtain ⟨held, declared, same⟩ := Option.map_eq_some_iff.mp chosen.base
  obtain ⟨receiver, typeName, -, -, named⟩ := chosen.holder
  generalize receiver.name = own at named
  obtain ⟨holder, base, constructor⟩ := choice
  obtain rfl : held.type.withoutPointer = base := same
  obtain rfl : holder = receiverVariable own typeName := named
  -- What makes the receiver is drafted from one of the functions that make its type.
  have made : ∀ callee ∈ Option.map (CalleeDraft.written qualifier)
      ((constructor.map fun maker => constructorDraft maker (receiverVariable own typeName)).map
        fun callee => callee.apartFrom taken),
      ∃ maker ∈ functions, (∃ wanted, isConstructorFor maker wanted external = true) ∧
        callee = ((constructorDraft maker (receiverVariable own typeName)).apartFrom
          taken).written qualifier := by
    cases constructor with
    | none => simp
    | some maker =>
      rintro callee ⟨⟩
      obtain ⟨listed, makes⟩ := chosen.constructor maker rfl
      exact ⟨maker, listed, makes, rfl⟩
  refine ⟨receiverVariable_ne own typeName,
    write_type_ne (spelled.receiver held declared).type.withoutPointer, fun callee given => ?_,
    fun callee given arg passed => ?_⟩
  · obtain ⟨maker, -, ⟨wanted, makes⟩, rfl⟩ := made callee given
    -- Each result of the maker is bound to a variable.
    have some := results_ne_of_isConstructorFor makes
    obtain ⟨name, package, receiver, ⟨params, results, variadic⟩, file, start⟩ := maker
    cases results with
    | nil => exact absurd rfl some
    | cons result rest => exact List.cons_ne_nil _ _
  · obtain ⟨maker, listed, -, rfl⟩ := made callee given
    obtain ⟨marked, among, rfl⟩ := List.mem_map.mp passed
    obtain ⟨draft, member, rfl⟩ := List.mem_map.mp among
    exact isComplete_of_mem_paramDrafts (others maker listed) member _

/-- The plan for a spelled function is complete if the package for tests has a qualifier. -/
theorem isComplete_planDraft {functions : List Function} {external : Bool}
    {choice : Option ReceiverChoice} {subject : PackageRef} {testName : String}
    (chosen : chooseReceiver functions function external = .ok choice)
    (spelled : function.IsSpelled) (others : ∀ other ∈ functions, other.IsSpelled)
    (titled : testName ≠ "") (testing : qualifier .testing ≠ "") :
    ((planDraft subject testName function choice).separated.written qualifier).IsComplete := by
  refine ⟨titled, ne_of_isName spelled.name, testing, fun arg passed => ?_, fun receiver declared => ?_⟩
  · obtain ⟨draft, member, rfl⟩ := List.mem_map.mp passed
    -- The arguments of the tested function keep their names, as if marked with nothing.
    exact draft.marked_empty ▸ isComplete_of_mem_paramDrafts spelled member ""
  · cases choice with
    | none => cases declared
    | some choice =>
      cases declared
      exact isComplete_receiverDraft (chooseReceiver_eq_ok chosen choice rfl) spelled others _

end Plans

section Testing

/-- What names the package for tests, if anything does, is not empty. -/
def NamesTesting (names : ImportSet) : Prop :=
  ∀ known, names.lookup PackageRef.testing.path = some known → known.name ≠ ""

/-- The imports of a file name the package for tests, if packages declare names at all. -/
theorem namesTesting_of_fileImports {deps : List (String × String)} {path : FilePath}
    {text : String} {names : ImportSet} (declared : ∀ entry ∈ deps, entry.2 ≠ "")
    (collected : fileImports deps (.ofText path text) = .ok names) : NamesTesting names := by
  intro known found
  -- The name is written in the import, declared by the package, or guessed from the path.
  rcases mem_of_collectNames collected (mem_of_lookup found) with none | ⟨spec, listed, -, same⟩
  · cases none
  obtain ⟨place, rfl⟩ := Prod.mk.inj same
  unfold localName
  split
  · rename_i name named
    exact isSpelled_of_mem_imports listed name named
  · rw [← place, FileScope.declaredName]
    -- The package may be one of the workspace, with a name declared there.
    cases held : deps.lookup PackageRef.testing.path with
    | some name => exact declared _ (mem_of_lookup held)
    | none =>
      have guessed : assumedName PackageRef.testing.path ≠ "" := by decide
      exact guessed

variable {view : Viewpoint}

/-- A new import of the package for tests has a name. -/
theorem chooseName_testing_ne (there : NamesTesting view.fileImports) (extra : ImportSet) :
    (view.chooseName extra .testing).name ≠ "" := by
  -- The preferred name is that of the tested file, or the one the package declares.
  have preferred : (view.preferredName .testing).name ≠ "" := by
    unfold Viewpoint.preferredName
    cases found : view.fileImports.lookup PackageRef.testing.path with
    | none => simp [PackageRef.testing]
    | some known => exact there known found
  have names := view.chooseName_names extra .testing
  generalize view.chooseName extra .testing = chosen at names
  cases names with
  | preferred free => exact preferred
  | numbered number atLeast clash free least => simp [preferred]

/-- Outside of itself, the package for tests has a qualifier once it is asked for. -/
theorem qualifiersIn_testing_ne (outside : view.subject.path ≠ PackageRef.testing.path)
    (here : NamesTesting view.testImports) (there : NamesTesting view.fileImports)
    (later : List PackageRef) :
    view.qualifiersIn ((.testing :: later).foldl view.noting []) .testing ≠ "" := by
  -- Asked for first, the package keeps the name that the test file or the new import gives it.
  have without : view.isWithin PackageRef.testing.path = false := by
    simp [Viewpoint.isWithin, outside.symm]
  rw [List.foldl_cons, Viewpoint.qualifiersIn, Viewpoint.qualifierOf_foldl, Viewpoint.qualifierOf,
    without]
  cases found : view.testImports.lookup PackageRef.testing.path with
  | some known => simpa using here known found
  | none =>
    have unsettled : view.isSettled PackageRef.testing.path = false := by
      simp [Viewpoint.isSettled, without, found]
    rw [view.lookup_noting_self [] unsettled]
    simpa using chooseName_testing_ne there []

end Testing

end Scaffold
