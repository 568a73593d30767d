import Scaffold.Proofs.Go.AliasTargets

/-! What the shape of a type expression hangs on, and how the type that the expression stands for
shows it. -/

namespace Scaffold.Go

/-- What the shape of a type expression hangs on: it is known by the expression, or it is that of a
declared type, whose name stands at an offset. -/
inductive ShapeLead
  | shape (shape : Shape)
  | name (name : String) (start : Nat)
  deriving DecidableEq, Repr

/-- What the shape behind a plain name hangs on. -/
def nameLead (decls : TypeDecls) (scope : FileScope) (params : List String) (name : String)
    (start : Nat) : ShapeLead :=
  if params.contains name then .shape .unknown
  else if decls.declares name then .name name start
  else if name == "error" || name == "any" then .shape .nillable
  else if isBasicName name then .shape (.basic name)
  else match scope.dots with
    -- Only where there is one dot import can it be told where the name comes from.
    | [package] => .shape (knownShape package.path name)
    | _ => .shape .unknown

/-- What the shape of an expression hangs on; arguments and parentheses make no difference. -/
def TypeExpr.lead (decls : TypeDecls) (scope : FileScope) (params : List String) :
    TypeExpr → ShapeLead
  | .name text start => nameLead decls scope params text start
  | .qualified package _ selected =>
    match scope.named.lookup package with
    | some found => .shape (knownShape found.path selected)
    | none => .shape .unknown
  | .generic base _ => base.lead decls scope params
  | .paren inner => inner.lead decls scope params
  | .struct _ => .shape .struct
  | .array _ _ => .shape .array
  | .pointer _ | .slice _ | .map _ _ | .chan _ _ | .func _ | .interface _ => .shape .nillable
  | .comment _ _ | .approximate _ => .shape .unknown

/-- What the shape behind a declaration hangs on. -/
def TypeDecl.lead (decls : TypeDecls) (decl : TypeDecl) : ShapeLead :=
  decl.spec.type.lead decls decl.scope decl.spec.params

/-- A file without an import of a path. -/
def FileScope.Lacks (scope : FileScope) (path : String) : Prop :=
  (∀ package ∈ scope.dots, package.path ≠ path) ∧
    ∀ name package, scope.named.lookup name = some package → package.path ≠ path

/-- A type that shows its shape by itself, and is no defined type of the package at a path. -/
structure ResolvedType.Shows (path : String) (shape : Shape) (type : ResolvedType) : Prop where
  plain : type.unalias = type
  foreign : ∀ found, type = .named found → found.package.path ≠ path
  own : type.ownShape = shape

/-- Findings behind others: no target is changed, and no error is taken back. -/
structure Findings.Keeps (before after : Findings) : Prop where
  targets : ∀ name type, before.aliases.lookup name = some (some type) →
    after.aliases.lookup name = some (some type)
  errors : before.errors ⊆ after.errors

/-- A type that shows what its expression hangs on, as far as it is found by then: a shape, or a
declared type. That is one of the package, or an alias with the target that is known, unless it is
reported as an alias that leads back to itself. -/
inductive Heads (package : PackageRef) (decls : TypeDecls) (shapes : List (String × Shape))
    (scope : FileScope) (after : Findings) : ShapeLead → ResolvedType → Prop
  | shape {shape : Shape} {type : ResolvedType} (shows : type.Shows package.path shape) :
    Heads package decls shapes scope after (.shape shape) type
  | defined {name : String} {start : Nat} {decl : TypeDecl} {args : List ResolvedType}
      (found : decls.lookup name = some decl) (first : decl.spec.isAlias = false) :
    Heads package decls shapes scope after (.name name start)
      (.named ⟨package, name, args, (shapes.lookup name).getD .unknown⟩)
  | aliased {name : String} {start : Nat} {decl : TypeDecl} {target : ResolvedType}
      (found : decls.lookup name = some decl) (second : decl.spec.isAlias = true)
      (known : after.aliases.lookup name = some (some target)) :
    Heads package decls shapes scope after (.name name start) (.aliased package name target)
  | invalid {name : String} {start : Nat} {decl : TypeDecl}
      (found : decls.lookup name = some decl) (second : decl.spec.isAlias = true)
      (reported : scope.diagnostic start (.recursiveAlias name) ∈ after.errors) :
    Heads package decls shapes scope after (.name name start) (.invalid name)

section Findings

variable {α : Type} {step : Resolving α} {before between after : Findings}

theorem Findings.Keeps.trans (first : before.Keeps between) (second : between.Keeps after) :
    before.Keeps after :=
  ⟨fun name type held => second.targets name type (first.targets name type held),
    List.Subset.trans first.errors second.errors⟩

/-- What a step keeps that neither takes errors back nor changes targets. -/
theorem keeps_of_grows (grows : Grows step) (grown : ExtendsAliases step) (before : Findings) :
    before.Keeps (step.run before).2 :=
  ⟨(grown before).targets, (grows before).subset⟩

end Findings

section Heads

variable {package : PackageRef} {decls : TypeDecls} {shapes : List (String × Shape)}
  {scope : FileScope} {before after : Findings} {lead : ShapeLead} {type : ResolvedType}

/-- What a type shows it still shows when more is found. -/
theorem Heads.mono (heads : Heads package decls shapes scope before lead type)
    (keeps : before.Keeps after) : Heads package decls shapes scope after lead type := by
  cases heads with
  | shape shows => exact .shape shows
  | defined found first => exact .defined found first
  | aliased found second known => exact .aliased found second (keeps.targets _ _ known)
  | invalid found second reported => exact .invalid found second (keeps.errors reported)

theorem ResolvedType.Shows.withArgs {path : String} {shape : Shape} (shows : type.Shows path shape)
    (args : List ResolvedType) : (type.withArgs args).Shows path shape := by
  obtain ⟨plain, foreign, own⟩ := shows
  cases type with
  | named found =>
    refine ⟨rfl, ?_, own⟩
    rintro other ⟨⟩
    exact foreign found rfl
  | _ => exact ⟨plain, foreign, own⟩

/-- Arguments make no difference to what a type shows. -/
theorem Heads.withArgs (heads : Heads package decls shapes scope after lead type)
    (args : List ResolvedType) :
    Heads package decls shapes scope after lead (type.withArgs args) := by
  cases heads with
  | shape shows => exact .shape (shows.withArgs args)
  | defined found first => exact .defined found first
  | aliased found second known => exact .aliased found second known
  | invalid found second reported => exact .invalid found second reported

end Heads

section Resolve

variable {table : NameTable} {lead : ShapeLead}

/-- A step that gives a type which shows a lead in the names of a table. -/
def NameTable.ResolvesHead (table : NameTable) (lead : ShapeLead) (step : Resolving ResolvedType) :
    Prop :=
  ∀ before, Heads table.package table.decls table.shapes table.scope (step.run before).2 lead
    (step.run before).1

/-- A type of which nothing is left to be found shows its shape. -/
theorem resolvesHead_shape {shape : Shape} {step : Resolving ResolvedType}
    (gives : Gives step (ResolvedType.Shows table.package.path shape)) :
    table.ResolvesHead (.shape shape) step :=
  fun before => .shape (gives before)

theorem foreignType_shows {path : String} {package : PackageRef} (foreign : package.path ≠ path)
    (name : String) :
    (foreignType package name).Shows path (knownShape package.path name) := by
  refine ⟨rfl, ?_, rfl⟩
  rintro found ⟨⟩
  exact foreign

theorem invalid_shows (path text : String) :
    (ResolvedType.invalid text).Shows path .unknown :=
  ⟨rfl, by simp, rfl⟩

/-- A declared name shows the declaration. -/
theorem declared_head (asks : table.AsksOnce) {name : String} {decl : TypeDecl}
    (found : table.decls.lookup name = some decl) (start : Nat) :
    table.ResolvesHead (.name name start) (table.declared name start decl) := by
  intro before
  cases second : decl.spec.isAlias with
  | false =>
    rw [NameTable.declared, second, if_neg Bool.false_ne_true]
    exact .defined found second
  | true =>
    -- A use of an alias without a target is reported; any other one is known from then on.
    rcases asked : (table.aliasTarget name).run before with ⟨_ | type, after⟩
    · rw [declared_run_none second asked]
      exact .invalid found second (by simp)
    · rw [declared_run_some second asked]
      exact .aliased found second ((asks name decl found second).2.2 before type after asked)

/-- A name that nothing in sight declares shows what is known of it behind a single dot import. -/
theorem undeclared_head (lacks : table.scope.Lacks table.package.path) (name : String)
    (start : Nat) :
    table.ResolvesHead (match table.scope.dots with
      | [package] => .shape (knownShape package.path name)
      | _ => .shape .unknown) (table.undeclared name start) := by
  unfold NameTable.undeclared
  cases dots : table.scope.dots with
  | nil => exact resolvesHead_shape ((Gives.trivial _).bind fun _ _ => .pure (invalid_shows _ name))
  | cons package others =>
    cases others with
    | nil =>
      have foreign : package.path ≠ table.package.path := lacks.1 package (by simp [dots])
      exact resolvesHead_shape (.pure (foreignType_shows foreign name))
    | cons => exact resolvesHead_shape (.pure (invalid_shows _ name))

/-- A plain name shows what it leads to. -/
theorem resolveName_head (asks : table.AsksOnce) (lacks : table.scope.Lacks table.package.path)
    (name : String) (start : Nat) :
    table.ResolvesHead (nameLead table.decls table.scope table.params name start)
      (table.resolveName name start) := by
  -- In the order of the lookup: a type parameter, a declared type, a predeclared one, any other.
  unfold NameTable.resolveName nameLead
  split
  case isTrue => exact resolvesHead_shape (.pure ⟨rfl, by simp, rfl⟩)
  case isFalse =>
    cases found : table.decls.lookup name with
    | some decl =>
      rw [if_pos (by rw [TypeDecls.declares, found]; rfl)]
      exact declared_head asks found start
    | none =>
      rw [if_neg (by simp [TypeDecls.declares, found])]
      unfold predeclared?
      by_cases error : (name == "error") = true
      · rw [if_pos (by rw [error, Bool.true_or]), if_pos error]
        exact resolvesHead_shape (.pure ⟨rfl, by simp, rfl⟩)
      by_cases any : (name == "any") = true
      · rw [if_pos (by rw [any, Bool.or_true]), if_neg error, if_pos any]
        exact resolvesHead_shape (.pure ⟨rfl, by simp, rfl⟩)
      rw [if_neg (by simp_all), if_neg error, if_neg any]
      by_cases basic : isBasicName name = true
      · rw [if_pos basic, if_pos basic]
        exact resolvesHead_shape (.pure ⟨rfl, by simp, rfl⟩)
      · rw [if_neg basic, if_neg basic]
        exact undeclared_head lacks name start

/-- A name behind that of a package shows what is known of it. -/
theorem resolveQualified_head (lacks : table.scope.Lacks table.package.path) (package : String)
    (start : Nat) (name : String) :
    table.ResolvesHead (TypeExpr.lead table.decls table.scope table.params
      (.qualified package start name)) (table.resolveQualified package start name) := by
  unfold NameTable.resolveQualified TypeExpr.lead
  cases found : table.scope.named.lookup package with
  | some other =>
    exact resolvesHead_shape (.pure (foreignType_shows (lacks.2 package other found) name))
  | none =>
    exact resolvesHead_shape ((Gives.trivial _).bind fun _ _ => .pure (invalid_shows _ _))

/-- Resolving types keeps what is found before it. -/
theorem resolveTypes_keeps (asks : table.AsksOnce) (types : List TypeExpr) (before : Findings) :
    before.Keeps ((resolveTypes table types).run before).2 := by
  have grows : table.TargetsHold Grows := fun name decl found second =>
    (asks name decl found second).1
  have grown : table.TargetsHold ExtendsAliases := fun name decl found second =>
    (asks name decl found second).2.1
  exact keeps_of_grows
    (resolveTypes_stepwise grows_isStepwise (grows.names grows_isStepwise grows_loops) types)
    (resolveTypes_stepwise extends_isStepwise (grown.names extends_isStepwise extends_loops) types)
    before

/-- An expression stands for a type that shows what the expression leads to. -/
theorem TypeExpr.resolve_head (asks : table.AsksOnce)
    (lacks : table.scope.Lacks table.package.path) : ∀ expr : TypeExpr,
    table.ResolvesHead (expr.lead table.decls table.scope table.params) (expr.resolve table)
  | .name text start => by
    rw [TypeExpr.lead, TypeExpr.resolve]
    exact resolveName_head asks lacks text start
  | .qualified package start selected => by
    rw [TypeExpr.resolve]
    exact resolveQualified_head lacks package start selected
  | .generic base args => by
    rw [TypeExpr.lead, TypeExpr.resolve]
    intro before
    -- The arguments are resolved behind the base, and change nothing that it shows.
    have heads := (base.resolve_head asks lacks before).mono
      (resolveTypes_keeps asks args ((base.resolve table).run before).2)
    exact heads.withArgs _
  | .paren inner => by
    rw [TypeExpr.lead, TypeExpr.resolve]
    exact inner.resolve_head asks lacks
  | .pointer elem | .slice elem | .array _ elem | .chan _ elem | .func _ | .struct _
  | .interface _ => by
    rw [TypeExpr.resolve]
    exact resolvesHead_shape ((Gives.trivial _).bind fun _ _ => .pure ⟨rfl, by simp, rfl⟩)
  | .map key value => by
    rw [TypeExpr.resolve]
    exact resolvesHead_shape ((Gives.trivial _).bind fun _ _ =>
      (Gives.trivial _).bind fun _ _ => .pure ⟨rfl, by simp, rfl⟩)
  | .comment text start => by
    rw [TypeExpr.resolve]
    exact resolvesHead_shape ((Gives.trivial _).bind fun _ _ => .pure (invalid_shows _ text))
  | .approximate text => by
    rw [TypeExpr.resolve]
    exact resolvesHead_shape (.pure (invalid_shows _ text))

end Resolve

end Scaffold.Go
