import Mathlib.Logic.Relation
import Scaffold.Proofs.Go.AliasDepth
import Scaffold.Proofs.Go.FileOrder

/-! An alias is reported as one that leads back to itself exactly if some alias does so, however the
aliases refer to one another. -/

namespace Scaffold.Go

open Relation (TransGen)

/-- Whether an error is that of an alias that leads back to itself. -/
def Diagnostic.isLoop (diagnostic : Diagnostic) : Bool :=
  match diagnostic.error with
  | .recursiveAlias _ => true
  | _ => false

/-- A declared alias is among some names used, and no type parameter in scope hides it. -/
def UsesAlias (decls : TypeDecls) (params : List String) (uses : List NameUse) (name : String) :
    Prop :=
  (∃ start, .plain name start ∈ uses) ∧ params.contains name = false ∧
    ∃ decl, decls.lookup name = some decl ∧ decl.spec.isAlias = true

/-- An alias refers to another one if its right-hand side uses it. -/
def RefersTo (decls : TypeDecls) (name other : String) : Prop :=
  ∃ decl, decls.lookup name = some decl ∧ decl.spec.isAlias = true ∧
    UsesAlias decls decl.spec.params decl.spec.type.uses other

/-- No alias leads back to itself. -/
def IsAcyclic (decls : TypeDecls) : Prop :=
  ∀ name, ¬ TransGen (RefersTo decls) name name

section Declared

variable {table : NameTable} {name : String} {decl : TypeDecl} {before after : Findings}

/-- A declared name is what it is declared as, unless a type parameter hides it. -/
theorem resolveName_declared (fresh : table.params.contains name = false)
    (found : table.decls.lookup name = some decl) (start : Nat) :
    table.resolveName name start = table.declared name start decl := by
  rw [NameTable.resolveName, fresh, found, if_neg Bool.false_ne_true]

/-- A use of an alias with a target is of an alias type with that target. -/
theorem declared_run_some (second : decl.spec.isAlias = true) {target : ResolvedType}
    (asked : (table.aliasTarget name).run before = (some target, after)) (start : Nat) :
    (table.declared name start decl).run before =
      (.aliased table.package name target, after) := by
  rw [NameTable.declared, if_pos second, StateT.run_bind, asked]
  rfl

/-- A use of an alias without a target is reported. -/
theorem declared_run_none (second : decl.spec.isAlias = true)
    (asked : (table.aliasTarget name).run before = (none, after)) (start : Nat) :
    (table.declared name start decl).run before =
      (.invalid name, { after with
        errors := after.errors ++ [table.scope.diagnostic start (.recursiveAlias name)] }) := by
  rw [NameTable.declared, if_pos second, StateT.run_bind, asked]
  rfl

end Declared

section Acyclic

variable {package : PackageRef} {decls : TypeDecls} {shapes : List (String × Shape)}

/-- A step that adds no alias that leads back to itself, if each alias in progress leads to those
that it may ask for. -/
def RunsClear (decls : TypeDecls) (depth : Nat) (asked : String → Prop) {α : Type}
    (step : Resolving α) : Prop :=
  ExtendsAliases step ∧ ∀ before, unmet decls before.aliases < depth →
    (∀ grey, before.aliases.lookup grey = some none → ∀ name, asked name →
      TransGen (RefersTo decls) grey name) →
    (step.run before).2.errors.filter Diagnostic.isLoop = before.errors.filter Diagnostic.isLoop

theorem runsClear_isStepwise (decls : TypeDecls) (depth : Nat) (asked : String → Prop) :
    IsStepwise (RunsClear decls depth asked) where
  pure value := ⟨extends_isStepwise.pure value, fun _ _ _ => rfl⟩
  report scope offset error here := by
    refine ⟨extends_isStepwise.report scope offset here, fun before _ _ => ?_⟩
    have other : (scope.diagnostic offset error).isLoop = false := by
      cases error <;> first | rfl | cases here
    exact (List.filter_append ..).trans (by rw [List.filter_cons, other]; exact List.append_nil _)
  bind := by
    rintro α β step next ⟨grown, first⟩ second
    refine ⟨extends_isStepwise.bind grown fun value => (second value).1, ?_⟩
    intro before left leads
    -- The first step leaves the same aliases in progress, and no more of them to meet.
    refine ((second _).2 _ ((grown before).unmet_le.trans_lt left) fun grey held => ?_).trans
      (first before left leads)
    exact leads grey (((grown before).marks grey).mp held)

/-- Names are looked up clearly if every alias among them has a target wherever those in progress
lead to it. -/
theorem runsClear_resolveName {depth : Nat} {asked : String → Prop} {table : NameTable}
    {name : String} {start : Nat} (grown : table.TargetsHold ExtendsAliases)
    (clear : ∀ decl, table.params.contains name = false → table.decls.lookup name = some decl →
      decl.spec.isAlias = true → asked name ∧ ∀ before, unmet decls before.aliases < depth →
        (∀ grey, before.aliases.lookup grey = some none → TransGen (RefersTo decls) grey name) →
        ∃ target after, (table.aliasTarget name).run before = (some target, after) ∧
          after.errors.filter Diagnostic.isLoop = before.errors.filter Diagnostic.isLoop) :
    RunsClear decls depth asked (table.resolveName name start) := by
  have stepwise := runsClear_isStepwise decls depth asked
  refine NameTable.resolveName_stepwise stepwise fun decl fresh found => ?_
  cases second : decl.spec.isAlias with
  | false =>
    rw [NameTable.declared, second, if_neg Bool.false_ne_true]
    exact stepwise.pure _
  | true =>
    refine ⟨NameTable.declared_stepwise extends_isStepwise extends_loops grown found start, ?_⟩
    intro before left leads
    obtain ⟨among, gives⟩ := clear decl fresh found second
    obtain ⟨target, after, ran, same⟩ :=
      gives before left fun grey held => leads grey held name among
    rw [declared_run_some second ran]
    exact same

/-- Where no alias leads back to itself, an alias has a target if those in progress lead to it. -/
theorem aliasTargetWithin_clear (acyclic : IsAcyclic decls) (depth : Nat) {name : String}
    {decl : TypeDecl} (found : decls.lookup name = some decl) (second : decl.spec.isAlias = true)
    (before : Findings) (left : unmet decls before.aliases < depth)
    (leads : ∀ grey, before.aliases.lookup grey = some none → TransGen (RefersTo decls) grey name) :
    ∃ target after,
      (aliasTargetWithin package decls shapes depth name).run before = (some target, after) ∧
        after.errors.filter Diagnostic.isLoop = before.errors.filter Diagnostic.isLoop := by
  -- On the depth: an alias inside the right-hand side has one less, and fewer are left to meet.
  induction depth generalizing name decl before with
  | zero => omega
  | succ depth ih =>
    cases held : before.aliases.lookup name with
    | some known =>
      rw [aliasTargetWithin_known held]
      cases known with
      | none => exact absurd (leads name held) (acyclic name)
      | some target => exact ⟨target, before, rfl, rfl⟩
    | none =>
      have clear : RunsClear decls depth (RefersTo decls name)
          (decl.spec.type.resolve (aliasTable package decls shapes depth decl)) := by
        refine decl.spec.type.resolve_stepwise_uses (runsClear_isStepwise decls depth _)
          fun other start used => ?_
        refine runsClear_resolveName (fun _ _ found _ => extends_aliasTargetWithin depth found)
          fun inner fresh declared another => ⟨?_, fun before left leads =>
            ih declared another before left leads⟩
        exact ⟨decl, found, second, ⟨start, used⟩, fresh, inner, declared, another⟩
      rw [aliasTargetWithin_new held found]
      refine ⟨_, _, rfl, clear.2 _ ?_ fun grey marked other refers => ?_⟩
      · exact Nat.lt_of_lt_of_le (unmet_insertKeyed_lt held found none) (Nat.le_of_lt_succ left)
      · -- The alias itself refers to what it asks for, and any other in progress leads to it.
        by_cases same : grey = name
        · exact same ▸ .single refers
        · rw [lookup_insertKeyed_of_ne _ _ same] at marked
          exact (leads grey marked).tail refers

theorem runsClear_targets (acyclic : IsAcyclic decls) (scope : FileScope)
    (params : List String) : (nameTable package decls shapes scope params).TargetsHold
      (RunsClear decls (decls.length + 1) fun _ => True) := by
  refine fun name decl found second => ⟨extends_aliasTargetWithin _ found, ?_⟩
  intro before left leads
  obtain ⟨target, after, ran, same⟩ := aliasTargetWithin_clear acyclic (decls.length + 1) found
    second before left fun grey held => leads grey held name trivial
  exact (congrArg (fun ran => ran.2.errors.filter Diagnostic.isLoop) ran).trans same

theorem runsClear_names (acyclic : IsAcyclic decls) (scope : FileScope) (params : List String) :
    (nameTable package decls shapes scope params).NamesHold
      (RunsClear decls (decls.length + 1) fun _ => True) :=
  fun _ _ => runsClear_resolveName (extends_targets scope params) fun _ _ found second =>
    ⟨trivial, aliasTargetWithin_clear acyclic (decls.length + 1) found second⟩

/-- Where no alias leads back to itself, none is reported as one that does. -/
theorem resolveAll_clear (acyclic : IsAcyclic decls) (ordered : InKeyOrder decls)
    (errors : List Diagnostic) (tableOf : List (String × ResolvedType) → List (String × Shape))
    (entries : List (FileScope × FuncDecl)) :
    (((resolveAll package decls tableOf entries).run ⟨[], errors⟩).2.errors.filter
      Diagnostic.isLoop) = errors.filter Diagnostic.isLoop := by
  have stepwise := runsClear_isStepwise decls (decls.length + 1) fun _ => True
  have again : ∀ scope offset (key : FuncKey), RunsClear decls (decls.length + 1) (fun _ => True)
      (reportError scope offset key.error) := by
    rintro scope offset ⟨_ | base, name⟩ <;>
      refine ⟨fun before => Extends.refl before.aliases, fun before _ _ => ?_⟩ <;>
      exact (List.filter_append ..).trans (List.append_nil _)
  have definitions : RunsClear decls (decls.length + 1) (fun _ => True)
      (resolveDefinitions package decls decls) :=
    resolveDefinitions_stepwise stepwise (runsClear_targets acyclic) (runsClear_names acyclic) decls
      (areDeclared_of_inKeyOrder ordered)
  have all : RunsClear decls (decls.length + 1) (fun _ => True)
      (resolveAll package decls tableOf entries) :=
    stepwise.bind definitions fun found =>
      have names : ∀ scope params,
          ((⟨package, decls, tableOf found⟩ : TypeTable).names scope params).NamesHold _ :=
        runsClear_names acyclic
      resolveFunctions_stepwise stepwise names again entries []
  exact all.2 ⟨[], errors⟩ (Nat.lt_succ_of_le (unmet_le_length decls [])) (by simp)

end Acyclic

section Founded

variable {package : PackageRef} {decls : TypeDecls} {shapes : List (String × Shape)}

/-- An alias from which no way through other aliases goes on for ever. -/
def IsFounded (decls : TypeDecls) (name : String) : Prop :=
  Acc (fun inner outer => RefersTo decls outer inner) name

/-- A founded alias does not lead back to itself. -/
theorem IsFounded.not_loop {name : String} (founded : IsFounded decls name) :
    ¬ TransGen (RefersTo decls) name name := by
  -- A way back to the alias is one from the next alias on it to that one.
  induction founded with
  | intro name _ ih =>
    intro loop
    obtain ⟨other, refers, back⟩ := TransGen.head'_iff.mp loop
    exact ih other refers (TransGen.tail' back refers)

/-- All aliases with known targets are founded. -/
def AllFounded (decls : TypeDecls) (aliases : List (String × Option ResolvedType)) : Prop :=
  ∀ name type, aliases.lookup name = some (some type) → IsFounded decls name

/-- A step that, if no loop is reported up to its end, keeps aliases founded. -/
structure KeepsFounded (decls : TypeDecls) {α : Type} (step : Resolving α) : Prop where
  grows : Grows step
  founded : ∀ before, (step.run before).2.errors.filter Diagnostic.isLoop = [] →
    AllFounded decls before.aliases → AllFounded decls (step.run before).2.aliases

/-- Where no loop is reported in the end, none was before. -/
theorem quiet_of_grows {before after : List Diagnostic} (grown : before <+: after)
    (quiet : after.filter Diagnostic.isLoop = []) : before.filter Diagnostic.isLoop = [] :=
  List.prefix_nil.mp (quiet ▸ grown.filter _)

theorem keepsFounded_isStepwise : IsStepwise (KeepsFounded decls) where
  pure value := ⟨grows_isStepwise.pure value, fun _ _ founded => founded⟩
  report scope offset error _ := ⟨grows_report scope offset error, fun _ _ founded => founded⟩
  bind first second := by
    refine ⟨grows_isStepwise.bind first.grows fun value => (second value).grows, ?_⟩
    intro before quiet founded
    have between := first.founded before (quiet_of_grows ((second _).grows _) quiet) founded
    exact (second _).founded _ quiet between

theorem keepsFounded_loops : LoopsHold (KeepsFounded decls) :=
  fun scope offset name =>
    ⟨grows_report scope offset (.recursiveAlias name), fun _ _ founded => founded⟩

/-- A step that keeps aliases founded, and finds those that it uses to be so. -/
structure Founds (decls : TypeDecls) (params : List String) (uses : List NameUse) {α : Type}
    (step : Resolving α) : Prop where
  keeps : KeepsFounded decls step
  uses : ∀ before, (step.run before).2.errors.filter Diagnostic.isLoop = [] →
    AllFounded decls before.aliases →
      ∀ name, UsesAlias decls params uses name → IsFounded decls name

/-- Where no alias is used, there is none to be founded. -/
theorem KeepsFounded.founds {α : Type} {step : Resolving α} (keeps : KeepsFounded decls step)
    {params : List String} {uses : List NameUse} (none : ∀ name start, .plain name start ∉ uses) :
    Founds decls params uses step :=
  ⟨keeps, fun _ _ _ name used => absurd used.1.choose_spec (none name _)⟩

theorem founds_isGraded (decls : TypeDecls) (params : List String) :
    IsGraded fun {α : Type} uses (step _ : Resolving α) => Founds decls params uses step where
  pure value := (keepsFounded_isStepwise.pure value).founds (by simp)
  bind first second := by
    refine ⟨keepsFounded_isStepwise.bind first.keeps fun value => (second value).keeps, ?_⟩
    intro before quiet founded name ⟨⟨start, member⟩, visible⟩
    have early := quiet_of_grows ((second _).keeps.grows _) quiet
    rcases List.mem_append.mp member with here | later
    · exact first.uses before early founded name ⟨⟨start, here⟩, visible⟩
    · exact (second _).uses _ quiet (first.keeps.founded before early founded) name
        ⟨⟨start, later⟩, visible⟩

/-- Asking for a target keeps aliases founded, and the alias is founded if it has one. -/
def TargetFounded (decls : TypeDecls) (name : String)
    (target : Resolving (Option ResolvedType)) : Prop :=
  KeepsFounded decls target ∧ ∀ before, (target.run before).2.errors.filter Diagnostic.isLoop = [] →
    AllFounded decls before.aliases → (target.run before).1.isSome = true → IsFounded decls name

/-- Looking up the names of a table finds the aliases to be founded whose targets are. -/
theorem founds_lookUps {table : NameTable}
    (targets : ∀ name decl, table.decls.lookup name = some decl → decl.spec.isAlias = true →
      TargetFounded table.decls name (table.aliasTarget name)) :
    LookUpsRelated (fun {α : Type} uses (step _ : Resolving α) =>
      Founds table.decls table.params uses step) table table where
  package package start name :=
    (NameTable.resolveQualified_stepwise keepsFounded_isStepwise table package start name).founds
      (by simp)
  comment start := (keepsFounded_isStepwise.report table.scope start rfl).founds (by simp)
  plain name start := by
    have kept : table.TargetsHold (KeepsFounded table.decls) := fun name decl found second =>
      (targets name decl found second).1
    refine ⟨kept.names keepsFounded_isStepwise keepsFounded_loops name start, ?_⟩
    rintro before quiet founded other ⟨⟨place, member⟩, fresh, decl, found, second⟩
    cases List.mem_singleton.mp member
    rw [resolveName_declared fresh found] at quiet
    -- The alias has a target, since a use of one without is reported.
    cases asked : (table.aliasTarget name).run before with
    | mk target after =>
      cases target with
      | none =>
        rw [declared_run_none second asked, List.filter_append] at quiet
        cases (List.append_eq_nil_iff.mp quiet).2
      | some type =>
        rw [declared_run_some second asked] at quiet
        refine (targets name decl found second).2 before ?_ founded ?_
        · rwa [asked]
        · rw [asked]; rfl

/-- An alias is founded if all that its right-hand side uses are. -/
theorem IsFounded.of_uses {name : String} {decl : TypeDecl} (found : decls.lookup name = some decl)
    (uses : ∀ other, UsesAlias decls decl.spec.params decl.spec.type.uses other →
      IsFounded decls other) : IsFounded decls name := by
  refine Acc.intro name fun other refers => ?_
  obtain ⟨again, declared, _, used⟩ := refers
  cases found.symm.trans declared
  exact uses other used

/-- A right-hand side keeps aliases founded if the targets that it asks for do. -/
theorem founds_rightHandSide {depth : Nat}
    (targets : ∀ name inner, decls.lookup name = some inner → inner.spec.isAlias = true →
      TargetFounded decls name (aliasTargetWithin package decls shapes depth name))
    (decl : TypeDecl) :
    Founds decls decl.spec.params decl.spec.type.uses
      (decl.spec.type.resolve (aliasTable package decls shapes depth decl)) := by
  have lookUps := @founds_lookUps (aliasTable package decls shapes depth decl) targets
  exact decl.spec.type.resolve_related (founds_isGraded decls decl.spec.params) lookUps

/-- An alias that is given a target is founded, and so are all that are met on the way. -/
theorem aliasTargetWithin_founded (depth : Nat) {name : String} {decl : TypeDecl}
    (found : decls.lookup name = some decl) (second : decl.spec.isAlias = true) :
    TargetFounded decls name (aliasTargetWithin package decls shapes depth name) := by
  -- On the depth: an alias inside the right-hand side has one less.
  induction depth generalizing name decl with
  | zero =>
    exact ⟨keepsFounded_isStepwise.pure none, fun _ _ _ some => by cases some⟩
  | succ depth ih =>
    have inner := founds_rightHandSide (fun _ _ found second => ih found second) decl
    have whole : ∀ before,
        ((aliasTargetWithin package decls shapes (depth + 1) name).run before).2.errors.filter
          Diagnostic.isLoop = [] → AllFounded decls before.aliases →
        AllFounded decls
            ((aliasTargetWithin package decls shapes (depth + 1) name).run before).2.aliases ∧
          (((aliasTargetWithin package decls shapes (depth + 1) name).run before).1.isSome = true →
            IsFounded decls name) := by
      intro before quiet founded
      cases held : before.aliases.lookup name with
      | some known =>
        rw [aliasTargetWithin_known held]
        refine ⟨founded, fun has => ?_⟩
        obtain ⟨type, rfl⟩ := Option.isSome_iff_exists.mp has
        exact founded name type held
      | none =>
        rw [aliasTargetWithin_new held found] at quiet ⊢
        have marked : AllFounded decls (insertKeyed name none before.aliases) :=
          forall_known_insert founded (by simp)
        have own : IsFounded decls name := .of_uses found (inner.uses _ quiet marked)
        have later := inner.keeps.founded _ quiet marked
        exact ⟨forall_known_insert later fun _ _ => own, fun _ => own⟩
    exact ⟨⟨grows_aliasTargetWithin (depth + 1) found, fun before quiet founded =>
      (whole before quiet founded).1⟩, fun before quiet founded =>
        (whole before quiet founded).2⟩

theorem keepsFounded_targets (scope : FileScope) (params : List String) :
    (nameTable package decls shapes scope params).TargetsHold (KeepsFounded decls) :=
  fun _ _ found second => (aliasTargetWithin_founded _ found second).1

theorem keepsFounded_names (scope : FileScope) (params : List String) :
    (nameTable package decls shapes scope params).NamesHold (KeepsFounded decls) :=
  (keepsFounded_targets scope params).names keepsFounded_isStepwise keepsFounded_loops

end Founded

end Scaffold.Go
