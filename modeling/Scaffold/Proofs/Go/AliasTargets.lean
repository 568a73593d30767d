import Scaffold.Proofs.Go.AliasCycles
import Scaffold.Proofs.Go.Redeclarations
import Scaffold.Proofs.Go.Resolved

/-! Where no alias leads back to itself, each has one target, which all its uses share. -/

namespace Scaffold.Go

/-- The table in which every alias has a target that is given beforehand. -/
def NameTable.fixed (table : NameTable) (target : String → ResolvedType) : NameTable :=
  table.withTargets fun name => pure (some (target name))

/-- With fixed targets, a use of an alias is of an alias type with the target of that alias. -/
theorem NameTable.fixed_resolveName {table : NameTable} (target : String → ResolvedType)
    {name : String} {decl : TypeDecl} (fresh : table.params.contains name = false)
    (found : table.decls.lookup name = some decl) (second : decl.spec.isAlias = true)
    (start : Nat) :
    (table.fixed target).resolveName name start =
      pure (.aliased table.package name (target name)) := by
  refine StateT.ext fun before => ?_
  have fresh : (table.fixed target).params.contains name = false := fresh
  have found : (table.fixed target).decls.lookup name = some decl := found
  rw [resolveName_declared fresh found]
  exact declared_run_some second rfl start

/-- The type that an expression stands for in a table of fixed targets. -/
def NameTable.typeOf (table : NameTable) (expr : TypeExpr) : ResolvedType :=
  ((expr.resolve table).run ⟨[], []⟩).1

/-- The signature that stands in a table of fixed targets. -/
def NameTable.signatureOf (table : NameTable) (signature : SignatureExpr) : Signature :=
  ((signature.resolve table).run ⟨[], []⟩).1

/-- The targets that are known are those that are given beforehand. -/
def Agrees (target : String → ResolvedType) (aliases : List (String × Option ResolvedType)) :
    Prop :=
  ∀ name type, aliases.lookup name = some (some type) → target name = type

theorem Agrees.of_extends {target : String → ResolvedType}
    {before after : List (String × Option ResolvedType)} (agrees : Agrees target after)
    (grown : Extends before after) : Agrees target before :=
  fun name type held => agrees name type (grown.targets name type held)

/-- Before an alias in progress was given its target, no other target was known. -/
theorem Agrees.of_insert {target : String → ResolvedType} {name : String} {type : ResolvedType}
    {aliases : List (String × Option ResolvedType)}
    (agrees : Agrees target (insertKeyed name (some type) aliases))
    (grey : aliases.lookup name = some none) : Agrees target aliases := by
  intro other known held
  have differs : other ≠ name := by
    rintro rfl
    rw [grey] at held
    cases held
  exact agrees other known (by rwa [lookup_insertKeyed_of_ne _ _ differs])

/-- A step gives what another one gives anywhere, if no loop is reported and targets are known as
they are given beforehand. -/
structure Reads (target : String → ResolvedType) {α : Type} (step other : Resolving α) : Prop where
  grows : Grows step
  grown : ExtendsAliases step
  reads : ∀ before, (step.run before).2.errors.filter Diagnostic.isLoop = [] →
    Agrees target (step.run before).2.aliases → ∀ state, (other.run state).1 = (step.run before).1

section Reads

variable {target : String → ResolvedType}

theorem reads_isLockstep (target : String → ResolvedType) : IsLockstep (Reads target) where
  pure value := ⟨grows_isStepwise.pure value, extends_isStepwise.pure value, fun _ _ _ _ => rfl⟩
  report scope offset error here :=
    ⟨grows_report scope offset error, extends_isStepwise.report scope offset here,
      fun _ _ _ _ => rfl⟩
  bind := by
    intro α β step other next after first second
    refine ⟨grows_isStepwise.bind first.grows fun value => (second value).grows,
      extends_isStepwise.bind first.grown fun value => (second value).grown, ?_⟩
    intro before quiet agrees state
    -- What the first step gives is read in what is known behind it, which is known in the end.
    have early := quiet_of_grows ((second _).grows _) quiet
    have same := first.reads before early (agrees.of_extends ((second _).grown _)) state
    rw [StateT.run_bind, StateT.run_bind]
    change ((after (other.run state).1).run (other.run state).2).1 =
      ((next (step.run before).1).run (step.run before).2).1
    rw [same]
    exact (second _).reads _ quiet agrees _

/-- A table asks for aliases that are known from then on by the targets that it is given. -/
def NameTable.AsksOnce (table : NameTable) : Prop :=
  ∀ name decl, table.decls.lookup name = some decl → decl.spec.isAlias = true →
    Grows (table.aliasTarget name) ∧ ExtendsAliases (table.aliasTarget name) ∧
      ∀ before type after, (table.aliasTarget name).run before = (some type, after) →
        after.aliases.lookup name = some (some type)

/-- Names are read as they are with the targets given beforehand. -/
theorem reads_resolveName {table : NameTable} (asks : table.AsksOnce) (name : String)
    (start : Nat) :
    Reads target (table.resolveName name start) ((table.fixed target).resolveName name start) := by
  have lockstep := reads_isLockstep target
  refine NameTable.resolveName_lockstep lockstep _ fun decl fresh found => ?_
  cases second : decl.spec.isAlias with
  | false =>
    rw [NameTable.declared, NameTable.declared, second, if_neg Bool.false_ne_true]
    exact lockstep.pure _
  | true =>
    have grows : table.TargetsHold Grows := fun name decl found second =>
      (asks name decl found second).1
    have grown : table.TargetsHold ExtendsAliases := fun name decl found second =>
      (asks name decl found second).2.1
    refine ⟨NameTable.declared_stepwise grows_isStepwise grows_loops grows found start,
      NameTable.declared_stepwise extends_isStepwise extends_loops grown found start, ?_⟩
    intro before quiet agrees state
    -- A use without a target is reported; with one, that is the target given beforehand.
    rcases asked : (table.aliasTarget name).run before with ⟨_ | type, after⟩
    · rw [declared_run_none second asked, List.filter_append] at quiet
      cases (List.append_eq_nil_iff.mp quiet).2
    · rw [declared_run_some second asked] at agrees ⊢
      have known := (asks name decl found second).2.2 before type after asked
      have other : ((table.fixed target).declared name start decl).run state =
          (.aliased table.package name (target name), state) := declared_run_some second rfl start
      exact (congrArg Prod.fst other).trans (by rw [agrees name type known])

/-- A step that gives a value, if no loop is reported and targets are known as they are given
beforehand. -/
structure ResolvesTo (target : String → ResolvedType) {α : Type} (step : Resolving α) (value : α) :
    Prop where
  grows : Grows step
  grown : ExtendsAliases step
  yields : ∀ before, (step.run before).2.errors.filter Diagnostic.isLoop = [] →
    Agrees target (step.run before).2.aliases → (step.run before).1 = value

theorem Reads.resolvesTo {α : Type} {step other : Resolving α} (reads : Reads target step other) :
    ResolvesTo target step (other.run ⟨[], []⟩).1 :=
  ⟨reads.grows, reads.grown, fun before quiet agrees =>
    (reads.reads before quiet agrees ⟨[], []⟩).symm⟩

/-- An expression yields the type that it stands for with the targets given beforehand. -/
theorem TypeExpr.resolve_yields {table : NameTable} (asks : table.AsksOnce) (expr : TypeExpr) :
    ResolvesTo target (expr.resolve table) ((table.fixed target).typeOf expr) :=
  Reads.resolvesTo (expr.resolve_lockstep (reads_isLockstep target) _ fun name start _ =>
    reads_resolveName asks name start)

theorem SignatureExpr.resolve_yields {table : NameTable} (asks : table.AsksOnce)
    (signature : SignatureExpr) :
    ResolvesTo target (signature.resolve table) ((table.fixed target).signatureOf signature) :=
  Reads.resolvesTo (signature.resolve_lockstep (reads_isLockstep target) _ fun name start _ =>
    reads_resolveName asks name start)

section ResolvesTo

variable {α β : Type} {step : Resolving α} {next : α → Resolving β} {value : α} {result : β}

theorem ResolvesTo.pure (target : String → ResolvedType) (value : α) :
    ResolvesTo target (Pure.pure value) value :=
  ⟨grows_isStepwise.pure value, extends_isStepwise.pure value, fun _ _ _ => rfl⟩

/-- Behind a step that yields a value, the next one goes on with that value. -/
theorem ResolvesTo.bind (first : ResolvesTo target step value) (grows : ∀ value, Grows (next value))
    (grown : ∀ value, ExtendsAliases (next value))
    (second : ResolvesTo target (next value) result) :
    ResolvesTo target (step >>= next) result where
  grows := grows_isStepwise.bind first.grows grows
  grown := extends_isStepwise.bind first.grown grown
  yields before quiet agrees := by
    have same := first.yields before (quiet_of_grows (grows _ _) quiet)
      (agrees.of_extends (grown _ _))
    rw [StateT.run_bind] at quiet agrees ⊢
    change ((next (step.run before).1).run (step.run before).2).1 = result
    change (((next (step.run before).1).run (step.run before).2).2.errors.filter
      Diagnostic.isLoop) = [] at quiet
    change Agrees target ((next (step.run before).1).run (step.run before).2).2.aliases at agrees
    rw [same] at quiet agrees ⊢
    exact second.yields _ quiet agrees

/-- Turning a value into another yields the other one. -/
theorem ResolvesTo.map (first : ResolvesTo target step value) (f : α → β) :
    ResolvesTo target (step >>= fun value => Pure.pure (f value)) (f value) :=
  first.bind (fun _ => grows_isStepwise.pure _) (fun _ => extends_isStepwise.pure _)
    (.pure target (f value))

end ResolvesTo

variable {package : PackageRef} {decls : TypeDecls} {shapes : List (String × Shape)}

/-- An alias that is given a target is known by it from then on. -/
theorem aliasTargetWithin_isKnown {depth : Nat} {name : String} {decl : TypeDecl}
    (found : decls.lookup name = some decl) {before after : Findings} {type : ResolvedType}
    (asked : (aliasTargetWithin package decls shapes depth name).run before = (some type, after)) :
    after.aliases.lookup name = some (some type) := by
  cases depth with
  | zero => cases asked
  | succ depth =>
    cases held : before.aliases.lookup name with
    | some known =>
      rw [aliasTargetWithin_known held] at asked
      cases asked
      exact held
    | none =>
      rw [aliasTargetWithin_new held found] at asked
      cases asked
      exact lookup_insertKeyed _ _ _

theorem aliasTable_asksOnce (depth : Nat) (decl : TypeDecl) :
    (aliasTable package decls shapes depth decl).AsksOnce :=
  fun _ _ found _ => ⟨grows_aliasTargetWithin depth found, extends_aliasTargetWithin depth found,
    fun _ _ _ asked => aliasTargetWithin_isKnown found asked⟩

theorem nameTable_asksOnce (scope : FileScope) (params : List String) :
    (nameTable package decls shapes scope params).AsksOnce :=
  fun _ _ found _ => ⟨grows_aliasTargetWithin _ found, extends_aliasTargetWithin _ found,
    fun _ _ _ asked => aliasTargetWithin_isKnown found asked⟩

end Reads

section Targets

variable {package : PackageRef} {decls : TypeDecls} {target : String → ResolvedType}

/-- What a declaration stands for, with fixed targets for the aliases in it. -/
def rightHandSide (package : PackageRef) (decls : TypeDecls) (target : String → ResolvedType)
    (decl : TypeDecl) : ResolvedType :=
  ((nameTable package decls [] decl.scope decl.spec.params).fixed target).typeOf decl.spec.type

/-- The targets that are known are what the right-hand sides of their aliases stand for. -/
def AllRead (package : PackageRef) (decls : TypeDecls) (target : String → ResolvedType)
    (aliases : List (String × Option ResolvedType)) : Prop :=
  ∀ name type decl, aliases.lookup name = some (some type) → decls.lookup name = some decl →
    type = rightHandSide package decls target decl

/-- An alias may be marked as one in progress, or known by what its right-hand side stands for. -/
theorem AllRead.insert {aliases : List (String × Option ResolvedType)}
    (read : AllRead package decls target aliases) {name : String} {own : Option ResolvedType}
    (stands : ∀ type ∈ own, ∀ decl, decls.lookup name = some decl →
      type = rightHandSide package decls target decl) :
    AllRead package decls target (insertKeyed name own aliases) := by
  have known := forall_known_insert
    (fun name type held decl found => read name type decl held found) stands
  exact fun name type decl held found => known name type held decl found

/-- A step that, if no loop is reported and the targets are as they are given beforehand, keeps them
what their right-hand sides stand for. -/
structure KeepsRead (package : PackageRef) (decls : TypeDecls) (target : String → ResolvedType)
    {α : Type} (step : Resolving α) : Prop where
  grows : Grows step
  grown : ExtendsAliases step
  keeps : ∀ before, (step.run before).2.errors.filter Diagnostic.isLoop = [] →
    Agrees target (step.run before).2.aliases → AllRead package decls target before.aliases →
    AllRead package decls target (step.run before).2.aliases

theorem keepsRead_report (scope : FileScope) (offset : Nat) (error : TypeError) :
    KeepsRead package decls target (reportError scope offset error) :=
  ⟨grows_report scope offset error, fun before => Extends.refl before.aliases,
    fun _ _ _ read => read⟩

theorem keepsRead_isStepwise : IsStepwise (KeepsRead package decls target) where
  pure value := ⟨grows_isStepwise.pure value, extends_isStepwise.pure value, fun _ _ _ read => read⟩
  report scope offset error _ := keepsRead_report scope offset error
  bind first second := by
    refine ⟨grows_isStepwise.bind first.grows fun value => (second value).grows,
      extends_isStepwise.bind first.grown fun value => (second value).grown, ?_⟩
    intro before quiet agrees read
    have between := first.keeps before (quiet_of_grows ((second _).grows _) quiet)
      (agrees.of_extends ((second _).grown _)) read
    exact (second _).keeps _ quiet agrees between

theorem keepsRead_loops : LoopsHold (KeepsRead package decls target) :=
  fun scope offset name => keepsRead_report scope offset (.recursiveAlias name)

/-- The target of an alias is what its right-hand side stands for. -/
theorem aliasTargetWithin_keepsRead (depth : Nat) {name : String} {decl : TypeDecl}
    (found : decls.lookup name = some decl) :
    KeepsRead package decls target (aliasTargetWithin package decls [] depth name) := by
  -- On the depth: an alias inside the right-hand side has one less.
  induction depth generalizing name decl with
  | zero => exact keepsRead_isStepwise.pure none
  | succ depth ih =>
    refine ⟨grows_aliasTargetWithin _ found, extends_aliasTargetWithin _ found, ?_⟩
    intro before quiet agrees read
    cases held : before.aliases.lookup name with
    | some known => rwa [aliasTargetWithin_known held]
    | none =>
      rw [aliasTargetWithin_new held found] at quiet agrees ⊢
      have targets : (aliasTable package decls [] depth decl).TargetsHold
          (KeepsRead package decls target) := fun _ _ found _ => ih found
      have keeps := decl.spec.type.resolve_stepwise keepsRead_isStepwise
        (targets.names keepsRead_isStepwise keepsRead_loops)
      have yields : ResolvesTo target
          (decl.spec.type.resolve (aliasTable package decls [] depth decl))
          (rightHandSide package decls target decl) :=
        decl.spec.type.resolve_yields (aliasTable_asksOnce depth decl)
      have marked : AllRead package decls target (insertKeyed name none before.aliases) :=
        read.insert (by simp)
      -- The alias stays in progress until it gets what its right-hand side gives.
      have agreed := agrees.of_insert (((yields.grown _).marks name).mpr (lookup_insertKeyed ..))
      refine (keeps.keeps _ quiet agreed marked).insert ?_
      rintro _ ⟨⟩ inner declared
      cases found.symm.trans declared
      exact yields.yields _ quiet agreed

theorem keepsRead_targets (scope : FileScope) (params : List String) :
    (nameTable package decls [] scope params).TargetsHold (KeepsRead package decls target) :=
  fun _ _ found _ => aliasTargetWithin_keepsRead _ found

theorem keepsRead_names (scope : FileScope) (params : List String) :
    (nameTable package decls [] scope params).NamesHold (KeepsRead package decls target) :=
  (keepsRead_targets scope params).names keepsRead_isStepwise keepsRead_loops

/-- One declaration resolved: an alias to its target, any other type to its right-hand side. -/
def resolveDefinition (package : PackageRef) (decls : TypeDecls) (name : String)
    (decl : TypeDecl) : Resolving (Option ResolvedType) :=
  let table := nameTable package decls [] decl.scope decl.spec.params
  if decl.spec.isAlias then table.aliasTarget name else some <$> decl.spec.type.resolve table

/-- Declarations are resolved one by one, each behind those in front of it. -/
theorem resolveDefinitions_run (name : String) (decl : TypeDecl) (rest : TypeDecls)
    (before : Findings) :
    (resolveDefinitions package decls ((name, decl) :: rest)).run before =
      let first := (resolveDefinition package decls name decl).run before
      let later := (resolveDefinitions package decls rest).run first.2
      ((first.1.map fun type => (name, type)).toList ++ later.1, later.2) := by
  rw [resolveDefinitions, resolveDefinition]
  cases decl.spec.isAlias <;> rfl

/-- An alias that is not in progress is given a target. -/
theorem aliasTargetWithin_isSome {name : String} {decl : TypeDecl}
    (found : decls.lookup name = some decl) {before : Findings}
    (idle : before.aliases.lookup name ≠ some none) (shapes : List (String × Shape))
    (depth : Nat) :
    ((aliasTargetWithin package decls shapes (depth + 1) name).run before).1.isSome = true := by
  cases held : before.aliases.lookup name with
  | some known =>
    rw [aliasTargetWithin_known held]
    cases known with
    | none => exact absurd held idle
    | some type => rfl
  | none =>
    rw [aliasTargetWithin_new held found]
    rfl

/-- A declaration stands for its right-hand side, if that is what targets stand for in the end. -/
theorem resolveDefinition_reads {name : String} {decl : TypeDecl}
    (found : decls.lookup name = some decl) {before : Findings}
    (idle : before.aliases.lookup name ≠ some none)
    (quiet : ((resolveDefinition package decls name decl).run before).2.errors.filter
      Diagnostic.isLoop = [])
    (agrees : Agrees target ((resolveDefinition package decls name decl).run before).2.aliases)
    (read : AllRead package decls target
      ((resolveDefinition package decls name decl).run before).2.aliases) :
    ((resolveDefinition package decls name decl).run before).1 =
      some (rightHandSide package decls target decl) := by
  cases second : decl.spec.isAlias with
  | true =>
    have step : resolveDefinition package decls name decl =
        aliasTargetWithin package decls [] (decls.length + 1) name := by
      rw [resolveDefinition, second]
      rfl
    rw [step] at read ⊢
    obtain ⟨type, given⟩ : ∃ type, ((aliasTargetWithin package decls [] (decls.length + 1)
        name).run before).1 = some type :=
      Option.isSome_iff_exists.mp (aliasTargetWithin_isSome found idle [] decls.length)
    rw [given]
    exact congrArg some (read name type decl (aliasTargetWithin_isKnown found
      (Prod.ext given rfl)) found)
  | false =>
    have step : resolveDefinition package decls name decl = some <$>
        decl.spec.type.resolve (nameTable package decls [] decl.scope decl.spec.params) := by
      rw [resolveDefinition, second]
      rfl
    rw [step] at quiet agrees ⊢
    have yields : ResolvesTo target
        (decl.spec.type.resolve (nameTable package decls [] decl.scope decl.spec.params))
        (rightHandSide package decls target decl) :=
      decl.spec.type.resolve_yields (nameTable_asksOnce decl.scope decl.spec.params)
    exact congrArg some (yields.yields before quiet agrees)

theorem extends_resolveDefinition {name : String} {decl : TypeDecl}
    (found : decls.lookup name = some decl) :
    ExtendsAliases (resolveDefinition package decls name decl) := by
  unfold resolveDefinition
  split
  · exact extends_aliasTargetWithin _ found
  · exact extends_isStepwise.map (TypeExpr.resolve_stepwise extends_isStepwise
      (extends_names _ _) _) some

theorem extends_resolveDefinitions {entries : TypeDecls} (declared : AreDeclared decls entries) :
    ExtendsAliases (resolveDefinitions package decls entries) :=
  resolveDefinitions_stepwise extends_isStepwise extends_targets extends_names entries declared

theorem AllRead.of_extends {before after : List (String × Option ResolvedType)}
    (read : AllRead package decls target after) (grown : Extends before after) :
    AllRead package decls target before :=
  fun name type decl held found => read name type decl (grown.targets name type held) found

/-- All declarations stand for their right-hand sides, if no loop is reported. -/
theorem resolveDefinitions_reads : ∀ entries : TypeDecls, AreDeclared decls entries →
    ∀ before, (∀ name, before.aliases.lookup name ≠ some none) →
      ((resolveDefinitions package decls entries).run before).2.errors.filter
        Diagnostic.isLoop = [] →
      Agrees target ((resolveDefinitions package decls entries).run before).2.aliases →
      AllRead package decls target
        ((resolveDefinitions package decls entries).run before).2.aliases →
      ((resolveDefinitions package decls entries).run before).1 =
        entries.map fun entry => (entry.1, rightHandSide package decls target entry.2)
  | [], _, _, _, _, _, _ => rfl
  | (name, decl) :: rest, declared, before, idle, quiet, agrees, read => by
    obtain ⟨found, others⟩ := List.forall_mem_cons.mp declared
    replace found : decls.lookup name = some decl := found
    rw [resolveDefinitions_run] at quiet agrees read ⊢
    -- On the declarations: what is known behind the first one is known in the end.
    have grown : Extends ((resolveDefinition package decls name decl).run before).2.aliases
        ((resolveDefinitions package decls rest).run
          ((resolveDefinition package decls name decl).run before).2).2.aliases :=
      extends_resolveDefinitions others _
    have first := resolveDefinition_reads found (idle name)
      (quiet_of_grows (grows_resolveDefinitions others _) quiet) (agrees.of_extends grown)
      (read.of_extends grown)
    have later := resolveDefinitions_reads rest others _ (fun name held =>
      idle name (((extends_resolveDefinition found before).marks name).mp held)) quiet agrees read
    dsimp only
    rw [first, later]
    rfl

end Targets

section Functions

variable {table : TypeTable} {target : String → ResolvedType}

/-- The accepted receiver of a method and the name of its base, with fixed targets for aliases. -/
def TypeTable.receiverOf (table : TypeTable) (target : String → ResolvedType) (scope : FileScope)
    (params : List ParamExpr) : Option (Var × String) := do
  let param ← params.find? fun param => !param.variadic
  let (base, _, typeParams) ← param.type.receiverBase?
  if table.decls.declares base then
    let type := ((table.names scope typeParams).fixed target).typeOf param.type
    some (⟨param.names.headD "", type⟩, base)
  else none

/-- The function that a declaration stands for, with fixed targets for the aliases in it. -/
def TypeTable.signed (table : TypeTable) (target : String → ResolvedType) (scope : FileScope)
    (decl : FuncDecl) (receiver : Option Var) (typeParams : List String) : Function :=
  let signature := ((table.names scope typeParams).fixed target).signatureOf decl.signature
  ⟨decl.name, table.package, receiver, signature, scope.path, decl.start⟩

/-- The function of a declaration, if it is none with a receiver that is not accepted. -/
def TypeTable.functionOf (table : TypeTable) (target : String → ResolvedType) (scope : FileScope)
    (decl : FuncDecl) : Option Function :=
  match decl.receiver with
  | none => some (table.signed target scope decl none decl.typeParams)
  | some params => (table.receiverOf target scope params).map fun (receiver, _) =>
    table.signed target scope decl (some receiver) receiver.type.receiverParams

theorem names_asksOnce (table : TypeTable) (scope : FileScope) (params : List String) :
    (table.names scope params).AsksOnce :=
  nameTable_asksOnce scope params

/-- A report behind which a value is given yields that value. -/
theorem ResolvesTo.report {α : Type} (scope : FileScope) (offset : Nat) (error : TypeError)
    (value : α) : ResolvesTo target (do reportError scope offset error; return value) value :=
  ResolvesTo.map ⟨grows_report scope offset error, fun before => Extends.refl before.aliases,
    fun _ _ _ => rfl⟩ fun _ => value

theorem resolveReceiver_yields (scope : FileScope) (params : List ParamExpr) :
    ResolvesTo target (resolveReceiver table scope params)
      (table.receiverOf target scope params) := by
  unfold resolveReceiver TypeTable.receiverOf
  cases params.find? fun param => !param.variadic with
  | none => exact .pure _ _
  | some param =>
    simp only [Option.bind_eq_bind, Option.bind_some]
    cases param.type.receiverBase? with
    | none => exact .report scope _ _ _
    | some found =>
      obtain ⟨base, start, typeParams⟩ := found
      dsimp only [Option.bind_some]
      -- On whether the package declares the base.
      by_cases foreign : (table.decls.lookup base).isNone = true
      · have other : table.decls.declares base = false := by
          simpa [TypeDecls.declares] using foreign
        rw [if_pos foreign, other]
        exact .report scope _ _ _
      · have own : table.decls.declares base = true := by
          simpa [TypeDecls.declares, Option.isSome_iff_ne_none] using foreign
        rw [if_neg foreign, own]
        exact (param.type.resolve_yields (names_asksOnce table scope typeParams)).map _

theorem resolveFunction_yields (scope : FileScope) (decl : FuncDecl) (receiver : Option Var)
    (typeParams : List String) :
    ResolvesTo target (resolveFunction table scope decl receiver typeParams)
      (table.signed target scope decl receiver typeParams) := by
  unfold resolveFunction
  exact (decl.signature.resolve_yields (names_asksOnce table scope typeParams)).map _

/-- A declaration by itself yields the function that it stands for. -/
theorem resolveOne_yields (scope : FileScope) (decl : FuncDecl) :
    ∃ found, ResolvesTo target (resolveOne table (fun _ => false) scope decl) found ∧
      found.map Prod.snd = table.functionOf target scope decl := by
  unfold resolveOne TypeTable.functionOf
  cases decl.receiver with
  | none =>
    dsimp only
    rw [resolveUnder_free]
    exact ⟨_, (resolveFunction_yields scope decl none decl.typeParams).map _, rfl⟩
  | some params =>
    have grows : ∀ accepted, Grows (resolveBehind table (fun _ => false) scope decl accepted) :=
      fun accepted => grows_resolveBehind accepted
    have grown : ∀ accepted,
        ExtendsAliases (resolveBehind table (fun _ => false) scope decl accepted) := fun accepted =>
      resolveBehind_stepwise extends_isStepwise (extends_names scope)
        (fun _ _ _ before => Extends.refl before.aliases) _ decl accepted
    have receiver : ResolvesTo target (resolveReceiver table scope params)
        (table.receiverOf target scope params) := resolveReceiver_yields scope params
    dsimp only
    cases accepted : table.receiverOf target scope params with
    | none =>
      rw [accepted] at receiver
      exact ⟨none, receiver.bind grows grown (.pure _ _), rfl⟩
    | some found =>
      rw [accepted] at receiver
      obtain ⟨taken, base⟩ := found
      refine ⟨some ((some base, decl.name), table.signed target scope decl (some taken)
        taken.type.receiverParams), receiver.bind grows grown ?_, rfl⟩
      rw [resolveBehind, resolveUnder_free]
      exact (resolveFunction_yields scope decl _ _).map _

/-- The target that each alias is known by. -/
def knownTarget (aliases : List (String × Option ResolvedType)) (name : String) : ResolvedType :=
  match aliases.lookup name with
  | some (some type) => type
  | _ => .invalid name

theorem agrees_knownTarget (aliases : List (String × Option ResolvedType)) :
    Agrees (knownTarget aliases) aliases := by
  intro name type held
  rw [knownTarget, held]

end Functions

section Packages

variable {metadata : Metadata} {decls : TypeDecls}

/-- When all declarations are resolved, every alias is known by a target. -/
theorem definitionsOf_known (ordered : InKeyOrder decls) (errors : List Diagnostic) {name : String}
    {decl : TypeDecl} (found : decls.lookup name = some decl) (second : decl.spec.isAlias = true) :
    (definitionsOf metadata decls errors).2.aliases.lookup name =
      some (some (knownTarget (definitionsOf metadata decls errors).2.aliases name)) := by
  -- Every alias was met, and at the end none is in progress, as at the beginning.
  have met := allMet_resolveDefinitions metadata.ref ordered ⟨[], errors⟩ name decl found second
  have grown : Extends [] (definitionsOf metadata decls errors).2.aliases :=
    extends_resolveDefinitions (areDeclared_of_inKeyOrder ordered) ⟨[], errors⟩
  obtain ⟨known, held⟩ := Option.isSome_iff_exists.mp met
  have held : (definitionsOf metadata decls errors).2.aliases.lookup name = some known := held
  rw [knownTarget, held]
  cases known with
  | none =>
    have idle := (grown.marks name).mp held
    cases idle
  | some type => rfl

/-- If no loop is reported for the declarations, no alias leads back to itself. -/
theorem isAcyclic_of_quiet (ordered : InKeyOrder decls) {errors : List Diagnostic}
    (quiet : (definitionsOf metadata decls errors).2.errors.filter Diagnostic.isLoop = []) :
    IsAcyclic decls := by
  have keeps : KeepsFounded decls (resolveDefinitions metadata.ref decls decls) :=
    resolveDefinitions_stepwise keepsFounded_isStepwise keepsFounded_targets keepsFounded_names
      decls (areDeclared_of_inKeyOrder ordered)
  have founded : AllFounded decls (definitionsOf metadata decls errors).2.aliases :=
    keeps.founded ⟨[], errors⟩ quiet (by simp [AllFounded])
  intro name loop
  -- An alias on a loop refers to another one, so it is declared, and known by a target.
  obtain ⟨other, ⟨decl, found, second, _⟩, _⟩ := Relation.TransGen.head'_iff.mp loop
  exact (founded name _ (definitionsOf_known ordered errors found second)).not_loop loop

/-- Where no loop is reported, a declaration by itself is the function that it stands for. -/
theorem alone_eq {table : TypeTable} {target : String → ResolvedType}
    {aliases : List (String × Option ResolvedType)} (met : AllMet table.decls aliases)
    (agrees : Agrees target aliases) (scope : FileScope) (decl : FuncDecl)
    (quiet : (alone table aliases scope decl).2.filter Diagnostic.isLoop = []) :
    (alone table aliases scope decl).1.map Prod.snd = table.functionOf target scope decl := by
  obtain ⟨found, yields, same⟩ : ∃ found, ResolvesTo target
      (resolveOne table (fun _ => false) scope decl) found ∧
        found.map Prod.snd = table.functionOf target scope decl :=
    resolveOne_yields scope decl
  have settled := (settled_resolveOne met (fun _ => false) scope decl).run []
  rw [← same, alone]
  congr 1
  refine yields.yields ⟨aliases, []⟩ quiet ?_
  rw [settled]
  exact agrees

/-- Where no loop is reported, each declaration by itself is the function that it stands for. -/
theorem functionsAlone_eq {table : TypeTable} {target : String → ResolvedType}
    {aliases : List (String × Option ResolvedType)} (met : AllMet table.decls aliases)
    (agrees : Agrees target aliases) (entries : List (FileScope × FuncDecl))
    (quiet : (errorsAlone table aliases entries).filter Diagnostic.isLoop = []) :
    functionsAlone table aliases entries =
      entries.filterMap fun entry => table.functionOf target entry.1 entry.2 := by
  rw [errorsAlone, List.filter_flatMap] at quiet
  refine List.filterMap_congr fun entry member => ?_
  exact alone_eq met agrees entry.1 entry.2 (List.flatMap_eq_nil_iff.mp quiet entry member)

/-- The declarations of a package, each with its right-hand side. -/
def rightHandSides (package : PackageRef) (decls : TypeDecls) (target : String → ResolvedType) :
    List (String × ResolvedType) :=
  decls.map fun entry => (entry.1, rightHandSide package decls target entry.2)

/-- If no loop is reported for the declarations, each stands for its right-hand side, with the
targets that the aliases are known by in the end. -/
theorem definitionsOf_reads (ordered : InKeyOrder decls) {errors : List Diagnostic}
    (quiet : (definitionsOf metadata decls errors).2.errors.filter Diagnostic.isLoop = []) :
    AllRead metadata.ref decls (knownTarget (definitionsOf metadata decls errors).2.aliases)
        (definitionsOf metadata decls errors).2.aliases ∧
      (definitionsOf metadata decls errors).1 = rightHandSides metadata.ref decls
        (knownTarget (definitionsOf metadata decls errors).2.aliases) := by
  -- In the end every alias is known by the target that all its uses have.
  have agrees := agrees_knownTarget (definitionsOf metadata decls errors).2.aliases
  have declared := areDeclared_of_inKeyOrder ordered
  have keeps : KeepsRead metadata.ref decls
      (knownTarget (definitionsOf metadata decls errors).2.aliases)
      (resolveDefinitions metadata.ref decls decls) :=
    resolveDefinitions_stepwise keepsRead_isStepwise keepsRead_targets keepsRead_names decls
      declared
  have read := keeps.keeps ⟨[], errors⟩ quiet agrees (by simp [AllRead])
  exact ⟨read, resolveDefinitions_reads decls declared ⟨[], errors⟩ (by simp) quiet agrees read⟩

/-- All that a package resolves is resolved with one target for each alias, the type that stands on
the right-hand side of the alias. -/
structure ResolvesWith (metadata : Metadata) (files : List SourceFile) (decls : TypeDecls)
    (target : String → ResolvedType) : Prop where
  targets : ∀ name decl, decls.lookup name = some decl → decl.spec.isAlias = true →
    target name = rightHandSide metadata.ref decls target decl
  /-- Each use of an alias, unless a type parameter hides it, is of an alias type. -/
  uses : ∀ shapes scope params name decl start, decls.lookup name = some decl →
    decl.spec.isAlias = true → params.contains name = false →
    ((nameTable metadata.ref decls shapes scope params).fixed target).resolveName name start =
      pure (.aliased metadata.ref name (target name))
  functions : (Package.ofFiles metadata files).functions =
    let shapes := shapeTable metadata.path (rightHandSides metadata.ref decls target)
    (declaredFuncs metadata.deps files).filterMap fun (scope, decl) =>
      TypeTable.functionOf ⟨metadata.ref, decls, shapes⟩ target scope decl

/-- If no loop is reported for a package, none is for its declared types or its functions. -/
theorem IsSettled.quiet {metadata : Metadata} {files : List SourceFile} {decls : TypeDecls}
    {errors : List Diagnostic} (settled : IsSettled metadata files decls errors)
    (quiet : (Package.ofFiles metadata files).errors.filter Diagnostic.isLoop = []) :
    (definitionsOf metadata decls errors).2.errors.filter Diagnostic.isLoop = [] ∧
      (errorsAlone (tableOf metadata decls errors) (definitionsOf metadata decls errors).2.aliases
        (declaredFuncs metadata.deps files)).filter Diagnostic.isLoop = [] := by
  have all := settled.errors.filter Diagnostic.isLoop
  rw [quiet, List.filter_append, List.filter_append] at all
  obtain ⟨defined, later⟩ := List.append_eq_nil_iff.mp all.nil_eq.symm
  exact ⟨defined, (List.append_eq_nil_iff.mp later).2⟩

/-- If no loop is reported, a package resolves with the targets that its aliases are known by. -/
theorem resolvesWith_of_quiet {metadata : Metadata} {files : List SourceFile}
    (quiet : (Package.ofFiles metadata files).errors.filter Diagnostic.isLoop = []) :
    ∃ target, ResolvesWith metadata files (typesIn metadata.deps files) target := by
  have ordered := inKeyOrder_collect metadata.deps files
  have settled := ofFiles_isSettled metadata files
  unfold typesIn
  generalize TypeDecls.collect (scopedFiles metadata.deps files) = collected at *
  obtain ⟨decls, repeats⟩ := collected
  dsimp only at *
  obtain ⟨defined, single⟩ := settled.quiet quiet
  obtain ⟨read, definitions⟩ := definitionsOf_reads ordered defined
  refine ⟨knownTarget (definitionsOf metadata decls repeats).2.aliases,
    fun name decl found second => ?_, fun _ _ _ _ _ start found second fresh =>
      NameTable.fixed_resolveName _ fresh found second start, ?_⟩
  · exact read name _ decl (definitionsOf_known ordered repeats found second) found
  · have met : AllMet (tableOf metadata decls repeats).decls
        (definitionsOf metadata decls repeats).2.aliases :=
      allMet_resolveDefinitions metadata.ref ordered ⟨[], repeats⟩
    have agrees := agrees_knownTarget (definitionsOf metadata decls repeats).2.aliases
    rw [settled.functions, functionsAlone_eq met agrees _ single, tableOf, definitions]

theorem isLoop_of_isRedeclaration {diagnostic : Diagnostic}
    (again : diagnostic.isRedeclaration = true) : diagnostic.isLoop = false := by
  obtain ⟨file, position, error⟩ := diagnostic
  cases error with
  | recursiveAlias => cases again
  | _ => rfl

/-- No loop is reported exactly if no alias leads back to itself. -/
theorem quiet_iff_isAcyclic (metadata : Metadata) (files : List SourceFile) :
    (Package.ofFiles metadata files).errors.filter Diagnostic.isLoop = [] ↔
      IsAcyclic (typesIn metadata.deps files) := by
  have ordered := inKeyOrder_collect metadata.deps files
  constructor
  · intro quiet
    exact isAcyclic_of_quiet ordered ((ofFiles_isSettled metadata files).quiet quiet).1
  · intro acyclic
    have again : ∀ error ∈ (TypeDecls.collect (scopedFiles metadata.deps files)).2,
        error.isRedeclaration = true := by
      rw [collect_eq]
      exact isRedeclaration_addTypes _ (by simp)
    rw [ofFiles_eq]
    refine (resolveAll_clear acyclic ordered _ _ _).trans ?_
    -- What is reported before are types that are declared again.
    refine List.filter_eq_nil_iff.mpr fun error member => ?_
    exact Bool.eq_false_iff.mp (isLoop_of_isRedeclaration (again error member))

/-- Aliases are resolved in bounded depth, a loop is reported exactly if some alias leads back to
itself, and if none does, every use of an alias anywhere is of an alias type with the one target of
that alias. -/
theorem aliases_resolved (metadata : Metadata) (files : List SourceFile) :
    let decls := typesIn metadata.deps files
    (∀ shapes more, aliasTargetWithin metadata.ref decls shapes (decls.length + 1 + more) =
      aliasTargetWithin metadata.ref decls shapes (decls.length + 1)) ∧
    ((∃ error ∈ (Package.ofFiles metadata files).errors, error.isLoop = true) ↔
      ∃ name, Relation.TransGen (RefersTo decls) name name) ∧
    ((∀ name, ¬ Relation.TransGen (RefersTo decls) name name) →
      ∃ target, ResolvesWith metadata files decls target) := by
  have reported := quiet_iff_isAcyclic metadata files
  refine ⟨fun shapes more => aliasTargetWithin_add _ _ shapes more, ?_, fun acyclic =>
    resolvesWith_of_quiet (reported.mpr acyclic)⟩
  rw [List.filter_eq_nil_iff, IsAcyclic] at reported
  simpa only [not_forall, not_not, exists_prop] using reported.not

/-- A file with an alias of another one, which leads back to the first through a defined type. -/
def detourFile : SourceFile :=
  .ofText ⟨"/ws/p/p.go"⟩ ("package p\n\ntype A = *B\n\ntype B = []C\n\n" ++
    "type C struct \x7b a A \x7d\n\nfunc F(a A, b B) \x7b\x7d\n")

/-- A way back through a defined type is none, so the package resolves with its targets. -/
theorem aliases_resolved_detour :
    let decls := typesIn metadataOfTwo.deps [detourFile]
    (∀ name, ¬ Relation.TransGen (RefersTo decls) name name) ∧
      ∃ target, ResolvesWith metadataOfTwo [detourFile] decls target := by
  obtain ⟨_, reported, resolves⟩ := aliases_resolved metadataOfTwo [detourFile]
  have none : (Package.ofFiles metadataOfTwo [detourFile]).errors = [] := by decide +kernel
  have acyclic : ∀ name, ¬ Relation.TransGen
      (RefersTo (typesIn metadataOfTwo.deps [detourFile])) name name := by
    intro name loop
    obtain ⟨error, member, _⟩ := reported.mpr ⟨name, loop⟩
    rw [none] at member
    cases member
  exact ⟨acyclic, resolves acyclic⟩

example : (Package.ofFiles metadataOfTwo [.ofText ⟨"/ws/p/p.go"⟩
    "package p\n\ntype A = *B\n\ntype B = []A\n"]).errors.map Diagnostic.text =
      ["/ws/p/p.go:5:12: invalid recursive type alias A"] := by
  decide +kernel

end Packages

end Scaffold.Go
