import Scaffold.Proofs.Go.Doubts
import Scaffold.Proofs.Go.FileOrder

/-! In a package without type errors, a function is resolved exactly if it leaves nothing in
doubt. -/

namespace Scaffold.Go

section Aliases

variable {package : PackageRef} {decls : TypeDecls} {shapes : List (String × Shape)}

/-- An alias that is marked as one in progress, or known by a target that is as valid as what the
alias stands for, keeps all aliases sound. -/
theorem AreSound.insert {aliases : List (String × Option ResolvedType)}
    (sound : AreSound decls aliases) {name : String} {target : Option ResolvedType}
    (same : ∀ type ∈ target, (type.isValid = true ↔ ¬ Doubtful decls name)) :
    AreSound decls (insertKeyed name target aliases) :=
  forall_known_insert sound same

/-- The target of a declared alias is valid exactly if nothing doubtful is behind the alias. -/
theorem aliasTargetWithin_traces (depth : Nat) {name : String} {decl : TypeDecl}
    (found : decls.lookup name = some decl) :
    Traces decls (aliasTargetWithin package decls shapes depth name) fun target =>
      ∀ type ∈ target, (type.isValid = true ↔ ¬ Doubtful decls name) := by
  -- On the depth: an alias inside the right-hand side has one less.
  induction depth generalizing name decl with
  | zero => exact .pure (by simp)
  | succ depth ih =>
    refine ⟨grows_aliasTargetWithin (depth + 1) found, fun before quiet sound => ?_⟩
    cases held : before.aliases.lookup name with
    | some known =>
      rw [aliasTargetWithin_known held]
      refine ⟨sound, ?_⟩
      rintro type rfl
      exact sound name type held
    | none =>
      rw [aliasTargetWithin_new held found] at quiet ⊢
      -- The right-hand side is resolved with the alias marked, and decides on its target.
      have traced : (aliasTable package decls shapes depth decl).IsTraced :=
        fun _ _ found _ => ih found
      have marked : AreSound decls (insertKeyed name none before.aliases) := sound.insert (by simp)
      obtain ⟨later, given⟩ := (decl.spec.type.resolve_traces traced).traces
        { before with aliases := insertKeyed name none before.aliases } quiet marked
      have same : _ ↔ ¬ Doubtful decls name :=
        given.valid.trans ((doubtful_iff found).not_left).symm
      refine ⟨later.insert ?_, ?_⟩ <;>
      · rintro type ⟨⟩
        exact same

/-- The names in sight of a file of the package are traced. -/
theorem nameTable_isTraced (scope : FileScope) (params : List String) :
    (nameTable package decls shapes scope params).IsTraced :=
  fun _ _ found _ => aliasTargetWithin_traces _ found

/-- Keeping aliases sound carries over from single steps to steps in turn. -/
theorem traces_isStepwise :
    IsStepwise fun {α : Type} (step : Resolving α) => Traces decls step fun _ => True where
  pure _ := .pure trivial
  report scope offset error _ := .report scope offset error ()
  bind first second := first.bind (fun value => (second value).grows) fun value _ => second value

theorem traces_loops :
    LoopsHold fun {α : Type} (step : Resolving α) => Traces decls step fun _ => True :=
  fun scope offset name => .report scope offset (.recursiveAlias name) ()

theorem traces_targets (scope : FileScope) (params : List String) :
    (nameTable package decls shapes scope params).TargetsHold
      fun {α : Type} (step : Resolving α) => Traces decls step fun _ => True :=
  fun _ _ found _ => (aliasTargetWithin_traces _ found).imp fun _ _ => trivial

theorem traces_names (scope : FileScope) (params : List String) :
    (nameTable package decls shapes scope params).NamesHold
      fun {α : Type} (step : Resolving α) => Traces decls step fun _ => True :=
  (traces_targets scope params).names traces_isStepwise traces_loops

/-- When all declarations are resolved and nothing was reported, the aliases are sound. -/
theorem areSound_of_quiet {metadata : Metadata} {errors : List Diagnostic}
    (ordered : InKeyOrder decls) (quiet : (definitionsOf metadata decls errors).2.errors = []) :
    AreSound decls (definitionsOf metadata decls errors).2.aliases := by
  have traces : Traces decls (resolveDefinitions metadata.ref decls decls) fun _ => True :=
    resolveDefinitions_stepwise traces_isStepwise traces_targets traces_names decls
      (areDeclared_of_inKeyOrder ordered)
  exact (traces.traces ⟨[], errors⟩ quiet (by simp [AreSound])).1

end Aliases

/-- Whether every name in the receiver, the parameters and the results stands for a type. -/
def Function.isResolved (function : Function) : Bool :=
  function.receiver.all (fun receiver => receiver.type.isValid) && function.signature.isValid

/-- What the receiver, the parameters and the results of a function leave in doubt; a method
without an accepted receiver is not looked into. -/
def FuncDecl.doubts (decls : TypeDecls) (scope : FileScope) (decl : FuncDecl) : List Doubt :=
  match decl.receiver with
  | none => decl.signature.doubts (sightOf decls scope decl.typeParams)
  | some params =>
    match acceptedReceiver? decls.declares params with
    | none => []
    | some (type, typeParams) =>
      type.doubts (sightOf decls scope typeParams) ++
        decl.signature.doubts (sightOf decls scope (type.boundParams decls.defines))

section Functions

variable {table : TypeTable} {scope : FileScope} {decl : FuncDecl}

/-- Of the type parameters in sight, only the names count. -/
theorem sightOf_congr {decls : TypeDecls} {first second : List String}
    (same : ∀ name, name ∈ first ↔ name ∈ second) :
    sightOf decls scope first = sightOf decls scope second := by
  have held : first.contains = second.contains := by
    funext name
    rw [Bool.eq_iff_iff, List.contains_iff_mem, List.contains_iff_mem]
    exact same name
  rw [sightOf, sightOf, held]

theorem TypeTable.names_isTraced (table : TypeTable) (scope : FileScope) (params : List String) :
    (table.names scope params).IsTraced :=
  nameTable_isTraced scope params

/-- What a step always gives, it gives where it is traced. -/
theorem Traces.gives {α : Type} {decls : TypeDecls} {step : Resolving α} {good fine : α → Prop}
    (traces : Traces decls step good) (gives : Gives step fine) :
    Traces decls step fun value => good value ∧ fine value where
  grows := traces.grows
  traces before quiet sound :=
    (traces.traces before quiet sound).imp_right fun holds => ⟨holds, gives before⟩

/-- A function is resolved exactly if its receiver is valid and its signature leaves no doubt. -/
theorem resolveFunction_traces (receiver : Option Var) (typeParams : List String) :
    Traces table.decls (resolveFunction table scope decl receiver typeParams) fun function =>
      (function.isResolved = true ↔ receiver.all (fun receiver => receiver.type.isValid) = true ∧
        AreClosed table.decls (decl.signature.doubts (sightOf table.decls scope typeParams))) := by
  refine (decl.signature.resolve_traces (table.names_isTraced scope typeParams)).map _ ?_
  intro signature given
  rw [Function.isResolved, Bool.and_eq_true, given]
  rfl

/-- An accepted receiver is valid exactly if it leaves no doubt, and binds what it should. -/
theorem resolveReceiver_traces {params : List ParamExpr} {type : TypeExpr}
    {typeParams : List String}
    (accepted : acceptedReceiver? table.decls.declares params = some (type, typeParams)) :
    Traces table.decls (resolveReceiver table scope params) fun result =>
      ∃ receiver base, result = some (receiver, base) ∧
        (receiver.type.isValid = true ↔
          AreClosed table.decls (type.doubts (sightOf table.decls scope typeParams))) ∧
        ∀ name, name ∈ receiver.type.receiverParams ↔
          name ∈ type.boundParams table.decls.defines := by
  have bound := (resolveReceiver_accepted scope accepted).2
  obtain ⟨param, base, start, first, reads, declared, rfl⟩ := acceptedReceiver?_eq_some.mp accepted
  have known : ¬ (table.decls.lookup base).isNone = true := by
    simpa [TypeDecls.declares, Option.isSome_iff_ne_none] using declared
  -- An accepted receiver is resolved like any type; what it binds is known from its form.
  have valid : Traces table.decls (resolveReceiver table scope params) fun result =>
      ∀ receiver base, result = some (receiver, base) → (receiver.type.isValid = true ↔
        AreClosed table.decls (param.type.doubts (sightOf table.decls scope typeParams))) := by
    unfold resolveReceiver
    simp only [first, reads, if_neg known]
    refine (param.type.resolve_traces (table.names_isTraced scope typeParams)).map _ ?_
    rintro resolved given receiver base ⟨⟩
    exact given.valid
  refine (valid.gives bound).imp ?_
  rintro result ⟨same, receiver, base, rfl, names⟩
  exact ⟨receiver, base, rfl, same receiver base rfl, names⟩

/-- A function under a free key is resolved without a warning. -/
theorem resolveUnder_free (key : FuncKey) (receiver : Option Var) (typeParams : List String) :
    resolveUnder table (fun _ => false) scope decl key receiver typeParams = (do
      let function ← resolveFunction table scope decl receiver typeParams
      return some (key, function)) := by
  rw [resolveUnder, if_neg Bool.false_ne_true]

/-- Resolving a method behind its receiver keeps the errors. -/
theorem grows_resolveBehind (accepted : Option (Var × String)) :
    Grows (resolveBehind table (fun _ => false) scope decl accepted) := by
  cases accepted with
  | none => exact grows_isStepwise.pure none
  | some found =>
    rw [resolveBehind, resolveUnder_free]
    refine grows_isStepwise.map (resolveFunction_stepwise grows_isStepwise ?_ decl _ _) _
    exact grows_names scope

/-- A declaration resolved by itself makes a resolved function, if any, exactly if it leaves
nothing in doubt. -/
theorem resolveOne_traces (table : TypeTable) (scope : FileScope) (decl : FuncDecl) :
    Traces table.decls (resolveOne table (fun _ => false) scope decl) fun found =>
      ((∀ named ∈ found, named.2.isResolved = true) ↔
        AreClosed table.decls (decl.doubts table.decls scope)) := by
  unfold resolveOne FuncDecl.doubts
  cases decl.receiver with
  | none =>
    dsimp only
    rw [resolveUnder_free]
    refine (resolveFunction_traces none decl.typeParams).map _ fun function given => ?_
    simpa using given
  | some params =>
    cases accepted : acceptedReceiver? table.decls.declares params with
    | none =>
      -- A refused receiver makes no function, and its method is not looked into.
      have kept : Traces table.decls (resolveReceiver table scope params) fun _ => True :=
        resolveReceiver_stepwise traces_isStepwise (traces_names scope) params
      have refused := (resolveReceiver_refused scope accepted).2
      refine (kept.gives refused).bind grows_resolveBehind ?_
      rintro result ⟨_, rfl⟩
      exact .pure (by simp [accepted])
    | some found =>
      obtain ⟨type, typeParams⟩ := found
      dsimp only
      refine (resolveReceiver_traces accepted).bind grows_resolveBehind ?_
      rintro result ⟨receiver, base, rfl, valid, names⟩
      rw [resolveBehind, resolveUnder_free]
      refine (resolveFunction_traces _ _).map _ fun function given => ?_
      simp only [accepted]
      rw [areClosed_append, ← valid, ← sightOf_congr names]
      simpa using given

end Functions

variable {metadata : Metadata} {files : List SourceFile}

/-- The types that files declare, by name. -/
def typesIn (known : List (String × String)) (files : List SourceFile) : TypeDecls :=
  (TypeDecls.collect (scopedFiles known files)).1

/-- No function of some files leaves a doubt open. -/
def LeaveNoDoubt (known : List (String × String)) (files : List SourceFile) : Prop :=
  ∀ file ∈ files, ∀ decl ∈ file.funcDecls, AreClosed (typesIn known files)
    (decl.doubts (typesIn known files) (FileScope.ofFile known file))

/-- If nothing is wrong with a package, its functions are resolved exactly if they leave no doubt
open. -/
theorem isResolved_iff_leaveNoDoubt (quiet : (Package.ofFiles metadata files).errors = []) :
    (∀ function ∈ (Package.ofFiles metadata files).functions, function.isResolved = true) ↔
      LeaveNoDoubt metadata.deps files := by
  have ordered := inKeyOrder_collect metadata.deps files
  obtain ⟨functions, errors⟩ := ofFiles_isSettled metadata files
  unfold LeaveNoDoubt typesIn
  generalize TypeDecls.collect (scopedFiles metadata.deps files) = collected at *
  obtain ⟨decls, repeats⟩ := collected
  dsimp only at *
  rw [quiet] at errors
  obtain ⟨defined, _, single⟩ : _ = [] ∧ _ = [] ∧ errorsAlone _ _ _ = [] := by
    simpa only [List.append_eq_nil_iff] using errors.nil_eq.symm
  -- Nothing is reported for the declarations, so the aliases are sound.
  have sound := areSound_of_quiet ordered defined
  -- Each declaration is resolved by itself, and reports nothing.
  have each : ∀ entry ∈ declaredFuncs metadata.deps files,
      ((∀ named ∈ (alone (tableOf metadata decls repeats)
          (definitionsOf metadata decls repeats).2.aliases entry.1 entry.2).1,
        named.2.isResolved = true) ↔ AreClosed decls (entry.2.doubts decls entry.1)) := by
    intro entry member
    have silent := List.flatMap_eq_nil_iff.mp single entry member
    exact ((resolveOne_traces (tableOf metadata decls repeats) entry.1 entry.2).traces
      ⟨_, []⟩ silent sound).2
  have declared : (∀ file ∈ files, ∀ decl ∈ file.funcDecls,
        AreClosed decls (decl.doubts decls (FileScope.ofFile metadata.deps file))) ↔
      ∀ entry ∈ declaredFuncs metadata.deps files,
        AreClosed decls (entry.2.doubts decls entry.1) := by
    simp only [declaredFuncs, scopedFuncs, List.forall_mem_flatMap, List.forall_mem_map]
  rw [functions, functionsAlone, declared]
  constructor
  · intro resolved entry member
    refine (each entry member).mp fun named found => ?_
    exact resolved _ (List.mem_filterMap.mpr ⟨entry, member, Option.mem_map_of_mem _ found⟩)
  · intro closed function listed
    obtain ⟨entry, member, found⟩ := List.mem_filterMap.mp listed
    obtain ⟨named, held, rfl⟩ := Option.map_eq_some_iff.mp found
    exact (each entry member).mpr (closed entry member) named held

end Scaffold.Go
