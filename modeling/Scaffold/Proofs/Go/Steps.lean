import Scaffold.Proofs.Go.Aliases

/-! Properties of single steps that carry over to everything a package is resolved by. -/

namespace Scaffold.Go

/-- Whether an error is about nothing but what stands at one place: no alias that leads back to
itself, and nothing that is declared a second time. -/
def TypeError.isLocal : TypeError → Bool
  | .undefined _ | .strayComment | .invalidReceiver | .foreignReceiver _ => true
  | .recursiveAlias _ | .redeclared _ | .repeatedMethod _ _ => false

/-- A relation of steps that holds where nothing happens, of reports of what stands at one place,
and of steps in turn. -/
structure IsLockstep (related : ∀ {α : Type}, Resolving α → Resolving α → Prop) : Prop where
  pure : ∀ {α : Type} (value : α), related (Pure.pure value) (Pure.pure value)
  report : ∀ scope offset {error : TypeError}, error.isLocal = true →
    related (reportError scope offset error) (reportError scope offset error)
  bind : ∀ {α β : Type} {step other : Resolving α} {next after : α → Resolving β},
    related step other → (∀ value, related (next value) (after value)) →
    related (step >>= next) (other >>= after)

/-- The table, but with the targets of aliases from elsewhere. -/
def NameTable.withTargets (table : NameTable)
    (target : String → Resolving (Option ResolvedType)) : NameTable :=
  { table with aliasTarget := target }

@[simp] theorem NameTable.withTargets_params (table : NameTable)
    (target : String → Resolving (Option ResolvedType)) :
    (table.withTargets target).params = table.params := rfl

@[simp] theorem NameTable.withTargets_decls (table : NameTable)
    (target : String → Resolving (Option ResolvedType)) :
    (table.withTargets target).decls = table.decls := rfl

section Lockstep

variable {related : ∀ {α : Type}, Resolving α → Resolving α → Prop} {table : NameTable}
  {target : String → Resolving (Option ResolvedType)}

/-- Turning the results into others is no step of its own. -/
theorem IsLockstep.map (lockstep : IsLockstep related) {α β : Type} {step other : Resolving α}
    (first : related step other) (f : α → β) :
    related (step >>= fun value => Pure.pure (f value))
      (other >>= fun value => Pure.pure (f value)) :=
  lockstep.bind first fun value => lockstep.pure (f value)

theorem NameTable.undeclared_lockstep (lockstep : IsLockstep related) (table : NameTable)
    (target : String → Resolving (Option ResolvedType)) (name : String) (start : Nat) :
    related (table.undeclared name start) ((table.withTargets target).undeclared name start) := by
  unfold NameTable.undeclared
  dsimp only [NameTable.withTargets]
  split
  · exact lockstep.map (lockstep.report table.scope start rfl) _
  · exact lockstep.pure _
  · exact lockstep.pure _

/-- What relates declared names in two tables relates all plain names in them. -/
theorem NameTable.resolveName_lockstep (lockstep : IsLockstep related)
    (target : String → Resolving (Option ResolvedType)) {name : String} {start : Nat}
    (declared : ∀ decl, table.params.contains name = false →
      table.decls.lookup name = some decl → related (table.declared name start decl)
        ((table.withTargets target).declared name start decl)) :
    related (table.resolveName name start)
      ((table.withTargets target).resolveName name start) := by
  unfold NameTable.resolveName
  rw [NameTable.withTargets_params, NameTable.withTargets_decls]
  split
  case isTrue => exact lockstep.pure _
  case isFalse fresh =>
    split
    case h_1 decl found => exact declared decl (eq_false_of_ne_true fresh) found
    case h_2 =>
      split
      · exact lockstep.pure _
      · exact NameTable.undeclared_lockstep lockstep table target name start

theorem NameTable.resolveQualified_lockstep (lockstep : IsLockstep related) (table : NameTable)
    (target : String → Resolving (Option ResolvedType)) (package : String) (start : Nat)
    (name : String) :
    related (table.resolveQualified package start name)
      ((table.withTargets target).resolveQualified package start name) := by
  unfold NameTable.resolveQualified
  dsimp only [NameTable.withTargets]
  split
  · exact lockstep.pure _
  · exact lockstep.map (lockstep.report table.scope start rfl) _

variable (related table target) in
/-- The plain names that are used are related in two tables. -/
def NamesRelated (uses : List NameUse) : Prop :=
  ∀ name start, .plain name start ∈ uses →
    related (table.resolveName name start) ((table.withTargets target).resolveName name start)

/-- Steps in lockstep are related if the plain names that they use are. -/
theorem IsLockstep.isGraded (lockstep : IsLockstep related) :
    IsGraded fun {α : Type} uses (step other : Resolving α) =>
      NamesRelated related table target uses → related step other where
  pure value _ := lockstep.pure value
  bind first second names := by
    refine lockstep.bind (first fun name start member => ?_) fun value =>
      second value fun name start member => ?_
    · exact names name start (List.mem_append_left _ member)
    · exact names name start (List.mem_append_right _ member)

theorem IsLockstep.lookUps (lockstep : IsLockstep related) :
    LookUpsRelated (fun {α : Type} uses (step other : Resolving α) =>
      NamesRelated related table target uses → related step other) table
      (table.withTargets target) where
  plain name start names := names name start List.mem_cons_self
  package package start name _ :=
    NameTable.resolveQualified_lockstep lockstep table target package start name
  comment start _ := lockstep.report table.scope start rfl

/-- What relates the names in an expression relates what the expression stands for. -/
theorem TypeExpr.resolve_lockstep (lockstep : IsLockstep related)
    (target : String → Resolving (Option ResolvedType)) (expr : TypeExpr)
    (names : NamesRelated related table target expr.uses) :
    related (expr.resolve table) (expr.resolve (table.withTargets target)) :=
  expr.resolve_related lockstep.isGraded lockstep.lookUps names

theorem SignatureExpr.resolve_lockstep (lockstep : IsLockstep related)
    (target : String → Resolving (Option ResolvedType)) (signature : SignatureExpr)
    (names : NamesRelated related table target signature.uses) :
    related (signature.resolve table) (signature.resolve (table.withTargets target)) :=
  signature.resolve_related lockstep.isGraded lockstep.lookUps names

end Lockstep

/-- A property of steps that holds where nothing happens, of reports of what stands at one place,
and of steps in turn. -/
structure IsStepwise (holds : ∀ {α : Type}, Resolving α → Prop) : Prop where
  pure : ∀ {α : Type} (value : α), holds (Pure.pure value : Resolving α)
  report : ∀ scope offset {error : TypeError}, error.isLocal = true →
    holds (reportError scope offset error)
  bind : ∀ {α β : Type} {step : Resolving α} {next : α → Resolving β},
    holds step → (∀ value, holds (next value)) → holds (step >>= next)

section Stepwise

variable {holds : ∀ {α : Type}, Resolving α → Prop} {table : NameTable}

/-- A property of single steps relates each step to itself. -/
theorem IsStepwise.lockstep (stepwise : IsStepwise holds) :
    IsLockstep fun {α : Type} (step _ : Resolving α) => holds step where
  pure := stepwise.pure
  report := stepwise.report
  bind := stepwise.bind

/-- Turning a result into another is no step of its own. -/
theorem IsStepwise.map (stepwise : IsStepwise holds) {α β : Type} {step : Resolving α}
    (first : holds step) (f : α → β) :
    holds (step >>= fun value => Pure.pure (f value)) :=
  stepwise.bind first fun value => stepwise.pure (f value)

/-- A property holds of asking a table for the target of any alias that it declares. -/
def NameTable.TargetsHold (holds : ∀ {α : Type}, Resolving α → Prop) (table : NameTable) : Prop :=
  ∀ name decl, table.decls.lookup name = some decl → decl.spec.isAlias = true →
    holds (table.aliasTarget name)

/-- A property holds of looking up any plain name in a table. -/
def NameTable.NamesHold (holds : ∀ {α : Type}, Resolving α → Prop) (table : NameTable) : Prop :=
  ∀ name start, holds (table.resolveName name start)

/-- A property holds of reporting any alias as one that leads back to itself. -/
def LoopsHold (holds : ∀ {α : Type}, Resolving α → Prop) : Prop :=
  ∀ scope offset name, holds (reportError scope offset (.recursiveAlias name))

theorem NameTable.declared_stepwise (stepwise : IsStepwise holds) (loops : LoopsHold holds)
    (targets : table.TargetsHold holds) {name : String} {decl : TypeDecl}
    (found : table.decls.lookup name = some decl) (start : Nat) :
    holds (table.declared name start decl) := by
  unfold NameTable.declared
  split
  case isTrue second =>
    -- Only an alias asks for a target, and reports if it is met inside its own right-hand side.
    refine stepwise.bind (targets name decl found second) fun target => ?_
    split
    · exact stepwise.pure _
    · exact stepwise.map (loops table.scope start name) _
  case isFalse => exact stepwise.pure _

/-- What holds of declared names holds of all plain names. -/
theorem NameTable.resolveName_stepwise (stepwise : IsStepwise holds) {name : String} {start : Nat}
    (declared : ∀ decl, table.params.contains name = false →
      table.decls.lookup name = some decl → holds (table.declared name start decl)) :
    holds (table.resolveName name start) :=
  resolveName_lockstep stepwise.lockstep table.aliasTarget declared

theorem NameTable.resolveQualified_stepwise (stepwise : IsStepwise holds) (table : NameTable)
    (package : String) (start : Nat) (name : String) :
    holds (table.resolveQualified package start name) :=
  resolveQualified_lockstep stepwise.lockstep table table.aliasTarget package start name

/-- What holds of asking for aliases holds of looking up names. -/
theorem NameTable.TargetsHold.names (targets : table.TargetsHold holds)
    (stepwise : IsStepwise holds) (loops : LoopsHold holds) : table.NamesHold holds :=
  fun _ start => resolveName_stepwise stepwise fun _ _ found =>
    declared_stepwise stepwise loops targets found start

/-- What holds of looking up the names in an expression holds of resolving it. -/
theorem TypeExpr.resolve_stepwise_uses (stepwise : IsStepwise holds) (expr : TypeExpr)
    (names : ∀ name start, .plain name start ∈ expr.uses → holds (table.resolveName name start)) :
    holds (expr.resolve table) :=
  expr.resolve_lockstep stepwise.lockstep table.aliasTarget names

/-- What holds of looking up names holds of resolving an expression. -/
theorem TypeExpr.resolve_stepwise (stepwise : IsStepwise holds) (names : table.NamesHold holds)
    (expr : TypeExpr) : holds (expr.resolve table) :=
  expr.resolve_stepwise_uses stepwise fun name start _ => names name start

theorem resolveTypes_stepwise (stepwise : IsStepwise holds) (names : table.NamesHold holds)
    (types : List TypeExpr) : holds (resolveTypes table types) := by
  induction types with
  | nil =>
    rw [resolveTypes]
    exact stepwise.pure []
  | cons first rest ih =>
    rw [resolveTypes]
    exact stepwise.bind (first.resolve_stepwise stepwise names) fun _ => stepwise.map ih _

theorem SignatureExpr.resolve_stepwise (stepwise : IsStepwise holds)
    (names : table.NamesHold holds) (signature : SignatureExpr) :
    holds (signature.resolve table) :=
  signature.resolve_lockstep stepwise.lockstep table.aliasTarget fun name start _ =>
    names name start

/-- What holds of looking up names holds of resolving a receiver. -/
theorem resolveReceiver_stepwise (stepwise : IsStepwise holds) {table : TypeTable}
    {scope : FileScope} (names : ∀ params, (table.names scope params).NamesHold holds)
    (params : List ParamExpr) : holds (resolveReceiver table scope params) := by
  unfold resolveReceiver
  split
  · exact stepwise.pure _
  · split
    · exact stepwise.map (stepwise.report scope _ rfl) _
    · split
      · exact stepwise.map (stepwise.report scope _ rfl) _
      · exact stepwise.map (TypeExpr.resolve_stepwise stepwise (names _) _) _

theorem resolveFunction_stepwise (stepwise : IsStepwise holds) {table : TypeTable}
    {scope : FileScope} (names : ∀ params, (table.names scope params).NamesHold holds)
    (decl : FuncDecl) (receiver : Option Var) (typeParams : List String) :
    holds (resolveFunction table scope decl receiver typeParams) := by
  unfold resolveFunction
  exact stepwise.map (SignatureExpr.resolve_stepwise stepwise (names _) _) _

/-- What holds of asking for aliases and of looking up names holds of resolving declarations. -/
theorem resolveDefinitions_stepwise (stepwise : IsStepwise holds) {package : PackageRef}
    {decls : TypeDecls}
    (targets : ∀ scope params, (nameTable package decls [] scope params).TargetsHold holds)
    (names : ∀ scope params, (nameTable package decls [] scope params).NamesHold holds) :
    ∀ entries : TypeDecls, AreDeclared decls entries →
      holds (resolveDefinitions package decls entries)
  | [], _ => stepwise.pure _
  | (name, decl) :: rest, declared => by
    obtain ⟨found, others⟩ := List.forall_mem_cons.mp declared
    -- On the declarations that are left: an alias is asked for, any other type is resolved.
    have later := resolveDefinitions_stepwise stepwise targets names rest others
    rw [resolveDefinitions]
    split
    case isTrue second =>
      exact stepwise.bind (targets _ _ name decl found second) fun _ => stepwise.map later _
    case isFalse =>
      refine stepwise.bind ?_ fun _ => stepwise.map later _
      exact stepwise.map (TypeExpr.resolve_stepwise stepwise (names _ _) _) some

end Stepwise

section Grows

/-- A step that keeps all errors found before it. -/
def Grows {α : Type} (step : Resolving α) : Prop :=
  ∀ before, before.errors <+: (step.run before).2.errors

theorem grows_report (scope : FileScope) (offset : Nat) (error : TypeError) :
    Grows (reportError scope offset error) :=
  fun _ => List.prefix_append _ _

theorem grows_isStepwise : IsStepwise Grows where
  pure _ _ := List.prefix_rfl
  report scope offset _ _ := grows_report scope offset _
  bind first second before := (first before).trans (second _ _)

theorem grows_loops : LoopsHold Grows :=
  fun scope offset name => grows_report scope offset (.recursiveAlias name)

variable {package : PackageRef} {decls : TypeDecls} {shapes : List (String × Shape)}

/-- Asking for the target of an alias keeps the errors. -/
theorem grows_aliasTargetWithin (depth : Nat) {name : String} {decl : TypeDecl}
    (found : decls.lookup name = some decl) :
    Grows (aliasTargetWithin package decls shapes depth name) := by
  -- On the depth: an alias inside the right-hand side has one less.
  induction depth generalizing name decl with
  | zero => exact grows_isStepwise.pure _
  | succ depth ih =>
    intro before
    cases held : before.aliases.lookup name with
    | some known =>
      rewrite [aliasTargetWithin_known held]
      exact List.prefix_rfl
    | none =>
      have targets : (aliasTable package decls shapes depth decl).TargetsHold Grows :=
        fun _ _ found _ => ih found
      -- The alias is marked before its right-hand side is resolved, which changes no errors.
      rw [aliasTargetWithin_new held found]
      exact decl.spec.type.resolve_stepwise grows_isStepwise
        (targets.names grows_isStepwise grows_loops)
        { before with aliases := insertKeyed name none before.aliases }

theorem grows_targets (scope : FileScope) (params : List String) :
    (nameTable package decls shapes scope params).TargetsHold Grows :=
  fun _ _ found _ => grows_aliasTargetWithin _ found

theorem grows_names (scope : FileScope) (params : List String) :
    (nameTable package decls shapes scope params).NamesHold Grows :=
  (grows_targets scope params).names grows_isStepwise grows_loops

/-- Resolving declarations keeps the errors. -/
theorem grows_resolveDefinitions {entries : TypeDecls} (declared : AreDeclared decls entries) :
    Grows (resolveDefinitions package decls entries) :=
  resolveDefinitions_stepwise grows_isStepwise grows_targets grows_names entries declared

end Grows

end Scaffold.Go
