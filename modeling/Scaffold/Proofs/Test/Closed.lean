import Scaffold.Proofs.Go.Dependencies
import Scaffold.Proofs.Go.TypeParams
import Scaffold.Proofs.Test.Visible

/-! The type parameters that a test mentions, and the function that declares them. -/

namespace Scaffold

open Go

/-- The type parameters that a test of a function mentions, in the types that it writes. -/
def Go.Function.writtenTypeParams (function : Function) (choice : Option ReceiverChoice) :
    List String :=
  typeParamsOfTypes (function.writtenTypes choice)

/-- The function whose type parameters a test may mention: the one that makes the receiver, or the
tested one if nothing makes it. -/
def Go.Function.binder (function : Function) (choice : Option ReceiverChoice) : Function :=
  (choice.bind ReceiverChoice.constructor).getD function

/-- A type parameter that a test mentions as a function is declared: the declaration binds it, and
the test shows it by its name. -/
structure IsLeftOpen (decl : FuncDecl) (draft : PlanDraft) (test name : String) : Prop where
  bound : name ∈ decl.boundParams
  shown : .text name ∈ draft.separated.shown
  occurs : Occurs name test

section Origins

variable {name : String} {type : ResolvedType}

/-- What is written of parameters is among their types. -/
theorem mem_of_writtenParams {index : Nat} {params : List Var}
    (written : type ∈ writtenParams index params) : ∃ param ∈ params, param.type = type := by
  induction params generalizing index with
  | nil => cases written
  | cons param rest ih =>
    rcases List.mem_append.mp written with here | later
    · split at here
      · exact ⟨param, List.mem_cons_self, (List.mem_singleton.mp here).symm⟩
      · cases here
    · obtain ⟨other, member, same⟩ := ih later
      exact ⟨other, List.mem_cons_of_mem _ member, same⟩

/-- What is written of results is among their types. -/
theorem mem_of_writtenResults {results : List Var} (written : type ∈ writtenResults results) :
    ∃ result ∈ results, result.type = type := by
  induction results with
  | nil => cases written
  | cons result rest ih =>
    cases rest with
    | nil =>
      rw [writtenResults] at written
      split at written
      · cases written
      · exact ⟨result, List.mem_cons_self, (List.mem_singleton.mp written).symm⟩
    | cons next later =>
      rcases List.mem_cons.mp written with rfl | behind
      · exact ⟨result, List.mem_cons_self, rfl⟩
      · obtain ⟨other, member, same⟩ := ih behind
        exact ⟨other, List.mem_cons_of_mem _ member, same⟩

/-- The parameters of a function mention what its signature does. -/
theorem mem_typeParams_of_writtenParams {signature : Signature} {index : Nat}
    (written : type ∈ writtenParams index signature.params) (mentioned : name ∈ type.typeParams) :
    name ∈ signature.typeParams := by
  obtain ⟨param, member, rfl⟩ := mem_of_writtenParams written
  exact Signature.mem_typeParams.mpr ⟨param, List.mem_append_left _ member, mentioned⟩

/-- The arguments of a type mention what the type does. -/
theorem mem_typeParams_of_args {base : ResolvedType} (among : type ∈ base.args)
    (mentioned : name ∈ type.typeParams) : name ∈ base.typeParams := by
  cases base with
  | named found =>
    obtain ⟨package, own, args, shape⟩ := found
    exact mem_typeParamsOfTypes.mpr ⟨type, among, mentioned⟩
  | _ => cases among

/-- A type parameter that a test mentions is one of the tested function, of the constructor, or of
the receiver if it has no constructor. -/
theorem writtenTypeParams_cases {function : Function} {choice : Option ReceiverChoice}
    (mentioned : name ∈ function.writtenTypeParams choice) :
    name ∈ function.signature.typeParams ∨
    (∃ found made, choice = some found ∧ found.constructor = some made ∧
      name ∈ made.signature.typeParams) ∨
    ∃ found, choice = some found ∧ found.constructor = none ∧ name ∈ found.base.typeParams := by
  obtain ⟨type, written, held⟩ := mem_typeParamsOfTypes.mp mentioned
  rw [Go.Function.writtenTypes, List.mem_append, List.mem_append] at written
  rcases written with (receiver | params) | results
  · cases choice with
    | none => cases receiver
    | some found =>
      rw [Option.map_some, Option.getD_some, ReceiverChoice.writtenTypes] at receiver
      split at receiver
      · rename_i made makes
        exact .inr (.inl ⟨found, made, rfl, makes, mem_typeParams_of_writtenParams receiver held⟩)
      · rename_i missing
        exact .inr (.inr ⟨found, rfl, missing, mem_typeParams_of_args receiver held⟩)
  · exact .inl (mem_typeParams_of_writtenParams params held)
  · obtain ⟨result, member, rfl⟩ := mem_of_writtenResults results
    exact .inl (Signature.mem_typeParams.mpr ⟨result, List.mem_append_right _ member, held⟩)

end Origins

section Guard

variable {function made : Function} {wanted : NamedType} {external : Bool}

/-- A type without type parameters as arguments brings none into the scope of its methods. -/
theorem receiverParams_of_hasTypeParams {type : ResolvedType}
    (found : type.receiverNamed? = some wanted) (plain : hasTypeParams wanted = false) :
    type.receiverParams = [] := by
  -- Behind an alias nothing is brought along at all.
  have base : ∀ own, type.withoutPointer = .named own → own = wanted := by
    intro own same
    cases type with
    | pointer elem =>
      obtain rfl : elem = .named own := same
      exact Option.some.inj found
    | named other =>
      cases same
      exact Option.some.inj found
    | _ => cases same
  rw [ResolvedType.receiverParams_eq]
  cases shown : type.withoutPointer with
  | named own =>
    obtain rfl := base own shown
    rw [ResolvedType.argParams, List.eq_nil_iff_forall_not_mem]
    intro name member
    rw [hasTypeParams, List.any_eq_false] at plain
    exact plain (.param name) (mem_paramNames.mp member) rfl
  | _ => rfl

/-- Constructors are looked for only if no argument of the receiver type is a type parameter. -/
theorem hasTypeParams_of_isConstructorFor (makes : isConstructorFor made wanted external = true) :
    hasTypeParams wanted = false := by
  have shallow : ∀ got : NamedType, (!hasTypeParams got && !hasTypeParams wanted &&
      identical (.named got) (.named wanted)) = true → hasTypeParams wanted = false := by
    intro got gives
    simp only [Bool.and_eq_true, Bool.not_eq_true'] at gives
    exact gives.1.2
  unfold isConstructorFor at makes
  split at makes
  · cases makes
  · dsimp only at makes
    split at makes
    · split at makes
      · cases makes
      · exact shallow _ makes
    · have gives := ((Bool.and_eq_true _ _).mp makes).1
      split at gives
      · cases gives
      · exact shallow _ gives
    · cases makes

/-- What is chosen for the receiver of a method. -/
theorem chooseReceiver_eq_some {functions : List Function} {choice : ReceiverChoice}
    (chosen : chooseReceiver functions function external = .ok (some choice)) :
    ∃ receiver wanted typeName, function.receiver = some receiver ∧
      receiver.type.receiverNamed? = some wanted ∧ choice.base = receiver.type.withoutPointer ∧
      choice.constructor = findConstructor functions wanted typeName external := by
  rw [chooseReceiver] at chosen
  split at chosen
  · cases chosen
  · rename_i receiver held
    obtain ⟨typeName, -, chosen⟩ := Except.of_bind_eq_ok chosen
    split at chosen
    · cases chosen
    · rename_i wanted named
      cases chosen
      exact ⟨receiver, wanted, typeName, held, named, rfl, rfl⟩

end Guard

section Shown

variable {name : String}

/-- A parameter that is written is shown with all type parameters that its type mentions. -/
theorem text_mem_paramDraft {isFirst : Bool} {param : Var}
    (written : param.isWritten isFirst = true) (mentioned : name ∈ param.type.typeParams) :
    .text name ∈ (paramDraft isFirst param).shown := by
  have held : Snippet.text name ∈ typeSnippets param.type :=
    List.mem_map.mpr ⟨.text name, param.type.text_mem_pieces mentioned, rfl⟩
  unfold Go.Var.isWritten at written
  unfold paramDraft
  split at written
  · cases written
  · rename_i plain
    rw [if_neg plain]
    split at written
    · -- Without a name there is a value, which is written with the type around or before it.
      rename_i unnamed
      rw [if_pos unnamed, FieldDraft.shown, if_pos (by rfl), zeroSnippets]
      unfold typeSnippets at held
      split at written
      · cases written
      · rename_i composite
        simp [Go.ResolvedType.zeroPieces, composite, held]
      · rename_i allocated
        simp [Go.ResolvedType.zeroPieces, allocated, held]
    · rename_i named
      have filled : param.name.isEmpty = false := by
        rw [Bool.or_eq_true, not_or] at named
        exact Bool.eq_false_iff.mpr named.1
      rw [if_neg named, FieldDraft.shown, filled, if_neg (by simp)]
      exact held

theorem text_mem_paramDraftsFrom (variadic : Bool) {index : Nat} {params : List Var}
    {type : ResolvedType} (written : type ∈ writtenParams index params)
    (mentioned : name ∈ type.typeParams) :
    .text name ∈ (paramDraftsFrom variadic index params).flatMap FieldDraft.shown := by
  induction params generalizing index with
  | nil => cases written
  | cons param rest ih =>
    rw [paramDraftsFrom, List.flatMap_cons, List.mem_append]
    rcases List.mem_append.mp written with here | later
    · split at here
      · rename_i own
        obtain rfl := List.mem_singleton.mp here
        exact .inl (text_mem_paramDraft own mentioned)
      · cases here
    · exact .inr (ih later)

/-- So are results, unless a last error is told by a flag. -/
theorem text_mem_resultDraftsFrom {count index : Nat} {results : List Var} {type : ResolvedType}
    (counted : index + results.length = count) (written : type ∈ writtenResults results)
    (mentioned : name ∈ type.typeParams) :
    .text name ∈ (resultDraftsFrom (fun place isError => gotName place count isError) index
      results).flatMap FieldDraft.shownResult := by
  have own : ∀ (place : Nat) (result : Var), ¬(place + 1 = count ∧ result.type.isError = true) →
      result.type = type → .text name ∈ FieldDraft.shownResult
        ⟨gotName place count result.type.isError, typeSnippets result.type, [], false⟩ := by
    intro place result ordinary same
    rw [← gotName_eq_gotErr_iff] at ordinary
    rw [FieldDraft.shownResult, if_neg fun flag => ordinary (eq_of_beq flag), same]
    exact List.mem_map.mpr ⟨.text name, type.text_mem_pieces mentioned, rfl⟩
  induction results generalizing index with
  | nil => cases written
  | cons result rest ih =>
    rw [List.length_cons] at counted
    rw [resultDraftsFrom, List.flatMap_cons, List.mem_append]
    cases rest with
    | nil =>
      rw [writtenResults] at written
      split at written
      · cases written
      · rename_i ordinary
        exact .inl (own index result (fun flag => ordinary flag.2)
          (List.mem_singleton.mp written).symm)
    | cons next later =>
      rw [List.length_cons] at counted
      rcases List.mem_cons.mp written with same | behind
      · -- With results behind it, it is not the last one.
        exact .inl (own index result (fun flag => by omega) same.symm)
      · exact .inr (ih (by rw [List.length_cons]; omega) behind)

/-- Every type parameter that a test mentions is shown. -/
theorem text_mem_shown {subject : PackageRef} {testName : String} {function : Function}
    {choice : Option ReceiverChoice} (mentioned : name ∈ function.writtenTypeParams choice) :
    .text name ∈ (planDraft subject testName function choice).shown := by
  obtain ⟨type, written, held⟩ := mem_typeParamsOfTypes.mp mentioned
  rw [Go.Function.writtenTypes, List.mem_append, List.mem_append] at written
  rw [PlanDraft.shown, List.mem_append, List.mem_append]
  rcases written with (receiver | params) | results
  · refine .inl (.inl (List.mem_cons_of_mem _ ?_))
    cases choice with
    | none => cases receiver
    | some found =>
      obtain ⟨holder, base, constructor⟩ := found
      rw [Option.map_some, Option.getD_some, ReceiverChoice.writtenTypes] at receiver
      cases constructor with
      | none =>
        -- A receiver that nothing makes is declared with its type.
        have inner := base.text_mem_pieces (mem_typeParams_of_args receiver held)
        exact List.mem_map.mpr ⟨.text name, inner, rfl⟩
      | some made =>
        exact List.mem_cons_of_mem _ (text_mem_paramDraftsFrom _ receiver held)
  · exact .inl (.inr (text_mem_paramDraftsFrom _ params held))
  · exact .inr (text_mem_resultDraftsFrom (Nat.zero_add _) results held)

end Shown

section Bound

variable {function : Function} {choice : Option ReceiverChoice} {name : String}

/-- A test mentions only type parameters of one function: those in its signature, or in the type of
its receiver. If a constructor makes the receiver, the tested function has none. -/
theorem mem_binder_of_written {functions : List Function} {external : Bool}
    (chosen : chooseReceiver functions function external = .ok choice) {decl : FuncDecl}
    (own : ∀ receiver ∈ function.receiver,
      function.signature.typeParams ⊆ receiver.type.receiverParams)
    (comes : (function.binder choice).ComesFrom decl)
    (mentioned : name ∈ function.writtenTypeParams choice) : name ∈ decl.boundParams := by
  cases choice with
  | none =>
    -- A function without a receiver mentions what its own list declares.
    rcases writtenTypeParams_cases mentioned with signature | ⟨found, -, ⟨⟩, -⟩ | ⟨found, ⟨⟩, -⟩
    exact comes.signature signature
  | some found =>
    obtain ⟨receiver, wanted, typeName, held, named, base, makes⟩ := chooseReceiver_eq_some chosen
    obtain ⟨holder, shown, constructor⟩ := found
    cases constructor with
    | none =>
      rcases writtenTypeParams_cases mentioned with
        signature | ⟨_, _, ⟨⟩, ⟨⟩, -⟩ | ⟨_, ⟨⟩, -, inner⟩
      · exact comes.signature signature
      · refine comes.receiver receiver held ?_
        dsimp only at base inner
        rw [base] at inner
        cases type : receiver.type with
        | pointer elem =>
          rw [type] at inner
          exact inner
        | _ =>
          rw [type] at inner
          exact inner
    | some made =>
      obtain ⟨-, eligible⟩ := findConstructor_eq_some makes.symm
      have none := receiverParams_of_hasTypeParams named
        (hasTypeParams_of_isConstructorFor eligible)
      rcases writtenTypeParams_cases mentioned with
        signature | ⟨_, _, ⟨⟩, ⟨⟩, signature⟩ | ⟨_, ⟨⟩, ⟨⟩, -⟩
      · have gone := own receiver held signature
        rw [none] at gone
        cases gone
      · exact comes.signature signature

/-- The function whose type parameters a test may mention is one of the package, as the tested one
is. -/
theorem binder_mem_functions {package : Package} {external : Bool}
    (chosen : chooseReceiver package.plainFunctions function external = .ok choice)
    (member : function ∈ package.functions) : function.binder choice ∈ package.functions := by
  cases choice with
  | none => exact member
  | some found =>
    obtain ⟨receiver, wanted, typeName, -, -, -, makes⟩ := chooseReceiver_eq_some chosen
    rw [Go.Function.binder, Option.bind_some]
    cases made : found.constructor with
    | none => exact member
    | some constructor =>
      obtain ⟨among, -⟩ := findConstructor_eq_some (makes.symm.trans made)
      exact mem_functions_of_plain among

end Bound

/-- What is planned at a location is planned in a package of files, for a function of it. -/
theorem exists_ofFiles_of_plannedAt {tree : FileTree} {location : Location} {found : PlannedTest}
    (located : plannedAt tree location = .ok found) :
    (∃ metadata files, found.subject.package = .ofFiles metadata files) ∧
      found.function ∈ found.subject.package.functions := by
  obtain ⟨package, loaded, located⟩ := Except.of_bind_eq_ok located
  obtain ⟨subject, opened, located⟩ := Except.of_bind_eq_ok located
  obtain ⟨site, -, located⟩ := Except.of_bind_eq_ok located
  obtain ⟨function, target, located⟩ := Except.of_bind_eq_ok located
  obtain ⟨⟨plan, imports⟩, -, located⟩ := Except.of_bind_eq_ok located
  cases located
  obtain ⟨-, -, files, metadata, -, -, -, made⟩ := exists_of_loadPackage none loaded
  obtain ⟨same, -⟩ := openSubject_eq_ok opened
  exact ⟨⟨metadata, files, same.trans made⟩, mem_functions_of_targetOf target⟩

/--
A test mentions the type parameters of one function at most, and shows those it mentions: of the
constructor if one makes the receiver, and of the tested function otherwise.

They are the ones that the declaration of that function binds, by a list of its own or in its
receiver. So nothing in a test is left open if that declaration binds none.
-/
theorem typeParams_of_addTest {tree : FileTree} {setting : Option String} {location : Location}
    {changes : List Change} (added : addTest (tree.workspace setting) location = .ok changes) :
    ∃ found test draft extra choice, plannedAt tree location = .ok found ∧
      found.site.destination.changes test found.imports setting = .ok changes ∧
      IsDrafted found.subject found.site found.function draft extra ∧
      chooseReceiver found.subject.package.plainFunctions found.function
        (viewpointOf found.subject found.site).external = .ok choice ∧
      ∃ file ∈ found.subject.package.files, (found.function.binder choice).file = file.path ∧
        ∃ decl ∈ file.funcDecls, (found.function.binder choice).ComesFrom decl ∧
          ∀ name ∈ found.function.writtenTypeParams choice, IsLeftOpen decl draft test name := by
  obtain ⟨found, test, located, rendered, made⟩ := planned_of_addTest added
  obtain ⟨draft, extra, drafted, whole, -⟩ := planTest_eq_ok (planTest_of_plannedAt located)
  obtain ⟨⟨metadata, files, package⟩, member⟩ := exists_ofFiles_of_plannedAt located
  obtain ⟨testName, choice, -, chosen, shown⟩ := drafted.drafted
  have binds := binder_mem_functions chosen member
  rw [package] at member binds
  obtain ⟨-, -, -, own, -, target⟩ := exists_comesFrom member
  obtain ⟨file, among, path, decl, listed, comes⟩ := exists_comesFrom binds
  refine ⟨found, test, draft, extra, choice, located, made, drafted, chosen, file, ?_, path, decl,
    listed, comes, fun name mentioned => ?_⟩
  · rw [package, ofFiles_files]
    exact among
  have text : .text name ∈ draft.separated.shown := by
    rw [PlanDraft.shown_separated, shown]
    exact text_mem_shown mentioned
  refine ⟨mem_binder_of_written chosen target.method comes mentioned, text, ?_⟩
  -- Whatever is shown stands in the text, and type parameters are written as they are.
  rw [← renderLines_of_render rendered, whole]
  exact occurs_shown draft.separated text

/-- Each named parameter of the tested function is declared with its type. -/
theorem occurs_field {plan : TestPlan} {field : Field} (member : field ∈ plan.target.args)
    (named : field.isNamed = true) :
    Occurs (field.name ++ " " ++ field.type) (renderLines plan.lines) := by
  have among : field ∈ plan.target.args.filter Field.isNamed :=
    List.mem_filter.mpr ⟨member, named⟩
  have declared : ⟨0, field.name ++ " " ++ field.type⟩ ∈ plan.fieldLines := by
    refine List.mem_append_left _ (List.mem_append_right _ ?_)
    rw [paramLines]
    split
    · rename_i none
      rw [none] at among
      cases among
    · exact List.mem_append_right _ (List.mem_flatMap.mpr ⟨field, among, List.mem_singleton_self _⟩)
  have stands := occurs_declaration plan declared
  exact stands

/-- A module with a method that has a type parameter from its receiver, and a function that has one
of its own. -/
def typeParamTree : FileTree :=
  ⟨[(⟨"go.mod"⟩, "module m"), (⟨"p.go"⟩, "package p\ntype Set[E any] struct\x7b\x7d\n" ++
    "func (s Set[E]) Add(x E) \x7b\x7d\nfunc F[T any](x T) \x7b\x7d")]⟩

/-- Whether a function takes just a value of a type parameter. -/
def Go.Function.takesParam (function : Function) (name : String) : Bool :=
  match function.signature with
  | ⟨[⟨own, .param held⟩], _, false⟩ => own == "x" && held == name
  | _ => false

/-- What a function takes that takes just a value of a type parameter. -/
theorem Go.Function.params_of_takesParam {function : Function} {name : String}
    (takes : function.takesParam name = true) :
    function.signature.params = [⟨"x", .param name⟩] ∧ function.signature.variadic = false := by
  unfold Go.Function.takesParam at takes
  split at takes
  · rename_i own held results signature
    simp only [Bool.and_eq_true, beq_iff_eq] at takes
    rw [signature, takes.1, takes.2]
    exact ⟨rfl, rfl⟩
  · cases takes

/-- So its test has one field, which is declared with the name of the type parameter. -/
theorem Go.Function.paramDrafts_of_takesParam {function : Function} {name : String}
    (takes : function.takesParam name = true) :
    paramDrafts function.signature = [⟨"x", [.text name], [], false⟩] := by
  obtain ⟨params, plain⟩ := function.params_of_takesParam takes
  rw [paramDrafts, params, plain]
  simp [paramDraftsFrom, paramDraft, Go.ResolvedType.isContext, typeSnippets,
    Go.ResolvedType.pieces, Snippet.ofPiece]

/-- The test of the method mentions the type parameter that its receiver binds. -/
theorem typeParams_typeParamTree : ∃ changes found choice decl,
    addTest (typeParamTree.workspace none) ⟨⟨"p.go"⟩, .point ⟨2, 17⟩⟩ = .ok changes ∧
    plannedAt typeParamTree ⟨⟨"p.go"⟩, .point ⟨2, 17⟩⟩ = .ok found ∧
    (found.function.binder choice).ComesFrom decl ∧
    "E" ∈ found.function.writtenTypeParams choice ∧ "E" ∈ decl.boundParams := by
  obtain ⟨found, located, checked⟩ := exists_plannedAt typeParamTree ⟨⟨"p.go"⟩, .point ⟨2, 17⟩⟩
    (fun found => found.subject.package.ref == ⟨"m", "p"⟩ && found.function.takesParam "E")
    (by decide +kernel)
  simp only [Bool.and_eq_true, beq_iff_eq] at checked
  obtain ⟨ref, takes⟩ := checked
  have apart : found.subject.package.ref.path ≠ "testing" := by
    rw [ref]
    decide
  obtain ⟨changes, added⟩ := exists_addTest located apart none
  obtain ⟨found', test, draft, extra, choice, same, -, -, -, file, -, -, decl, -, comes, bound⟩ :=
    typeParams_of_addTest added
  obtain rfl := Except.ok.inj (same.symm.trans located)
  have written : ResolvedType.param "E" ∈ found'.function.writtenTypes choice := by
    rw [Go.Function.writtenTypes, (Go.Function.params_of_takesParam takes).1]
    exact List.mem_append_left _ (List.mem_append_right _ (List.mem_singleton_self _))
  have mentioned : "E" ∈ found'.function.writtenTypeParams choice :=
    mem_typeParamsOfTypes.mpr ⟨_, written, List.mem_singleton_self _⟩
  exact ⟨changes, _, choice, decl, added, located, comes, mentioned, (bound "E" mentioned).bound⟩

/-- The test of the function has a field of the type parameter that the function declares. The test
declares none, so nothing is meant by the name there. -/
theorem open_typeParam_typeParamTree : ∃ changes found test,
    addTest (typeParamTree.workspace none) ⟨⟨"p.go"⟩, .point ⟨3, 6⟩⟩ = .ok changes ∧
    plannedAt typeParamTree ⟨⟨"p.go"⟩, .point ⟨3, 6⟩⟩ = .ok found ∧
    found.plan.render = .ok test ∧
    (∃ file ∈ found.subject.package.files, ∃ decl ∈ file.funcDecls,
      decl.start = found.function.start ∧ decl.boundParams = ["T"]) ∧
    found.function.signature.params = [⟨"x", .param "T"⟩] ∧
    found.plan.target.args = [⟨"x", "T", "", false⟩] ∧ Occurs "x T" test := by
  obtain ⟨found, located, checked⟩ := exists_plannedAt typeParamTree ⟨⟨"p.go"⟩, .point ⟨3, 6⟩⟩
    (fun found => found.subject.package.ref == ⟨"m", "p"⟩ && found.function.takesParam "T" &&
      (found.subject.package.files.any fun file => file.funcDecls.any fun decl =>
        decl.start == found.function.start && decl.boundParams == ["T"]))
    (by decide +kernel)
  simp only [Bool.and_eq_true, beq_iff_eq] at checked
  obtain ⟨⟨ref, takes⟩, bound⟩ := checked
  have apart : found.subject.package.ref.path ≠ "testing" := by
    rw [ref]
    decide
  obtain ⟨changes, added⟩ := exists_addTest located apart none
  obtain ⟨found', test, same, rendered, -⟩ := planned_of_addTest added
  obtain rfl := Except.ok.inj (same.symm.trans located)
  obtain ⟨draft, extra, drafted, whole, -⟩ := planTest_eq_ok (planTest_of_plannedAt located)
  obtain ⟨file, member, inner⟩ := List.any_eq_true.mp bound
  obtain ⟨decl, listed, here⟩ := List.any_eq_true.mp inner
  simp only [Bool.and_eq_true, beq_iff_eq] at here
  have args : found'.plan.target.args = [⟨"x", "T", "", false⟩] := by
    rw [whole, args_of_planned drafted, Go.Function.paramDrafts_of_takesParam takes]
    show [(⟨"x", "T" ++ "", "", false⟩ : Field)] = _
    rw [String.append_empty]
  have shown : Occurs "x T" (renderLines found'.plan.lines) := by
    have declared : ⟨"x", "T", "", false⟩ ∈ found'.plan.target.args := by
      rw [args]
      exact List.mem_singleton_self _
    exact occurs_field declared (by decide)
  rw [renderLines_of_render rendered] at shown
  exact ⟨changes, _, test, added, located, rendered, ⟨file, member, decl, listed, here⟩,
    (Go.Function.params_of_takesParam takes).1, args, shown⟩

end Scaffold
