import Mathlib.Data.List.Nodup
import Mathlib.Data.List.Perm.Basic
import Mathlib.Tactic.ByContra
import Mathlib.Tactic.Tauto
import Scaffold.Go.Package
import Scaffold.Proofs.Go.Lookups
import Scaffold.Proofs.Go.Scope

/-! What looking names up adds to the findings: each unknown name once, and aliases on the way. -/

namespace Scaffold.Go

/-- Whether nothing in sight goes by the name. -/
def NameUse.isUnknown (decls : TypeDecls) (scope : FileScope) (params : List String) :
    NameUse → Bool
  | .plain name _ => !params.contains name && !decls.declares name &&
    (predeclared? name).isNone && scope.dots.isEmpty
  | .package name _ => (scope.named.lookup name).isNone

/-- An error for every use of a name that nothing in sight goes by. -/
def unknownIn (decls : TypeDecls) (scope : FileScope) (params : List String)
    (uses : List NameUse) : List Diagnostic :=
  (uses.filter (NameUse.isUnknown decls scope params)).map fun use =>
    scope.diagnostic use.start (.undefined use.name)

/-- The errors that looking into a declaration of a name adds. -/
def owedBy (decls : TypeDecls) (name : String) : List Diagnostic :=
  match decls.lookup name with
  | some decl => unknownIn decls decl.scope decl.spec.params decl.spec.type.uses
  | none => []

theorem owedBy_eq {decls : TypeDecls} {name : String} {decl : TypeDecl}
    (found : decls.lookup name = some decl) :
    owedBy decls name = unknownIn decls decl.scope decl.spec.params decl.spec.type.uses := by
  rw [owedBy, found]

/-- Findings that gain some errors, and aliases with the errors in what they stand for. -/
structure Advances (decls : TypeDecls) (met : List String) (found : List Diagnostic)
    (before after : Findings) : Prop where
  nodup : met.Nodup
  new : ∀ name ∈ met, before.aliases.lookup name = none
  declared : ∀ name ∈ met, ∃ decl, decls.lookup name = some decl ∧ decl.spec.isAlias = true
  known : ∀ name, (after.aliases.lookup name).isSome = true ↔
    name ∈ met ∨ (before.aliases.lookup name).isSome = true
  errors : (after.errors.filter Diagnostic.isUndefined).Perm
    (before.errors.filter Diagnostic.isUndefined ++ (found ++ met.flatMap (owedBy decls)))

section Advances

variable {decls : TypeDecls} {met more : List String} {found others : List Diagnostic}
  {before between after : Findings}

/-- Where nothing happens, nothing is found. -/
theorem Advances.refl (decls : TypeDecls) (findings : Findings) :
    Advances decls [] [] findings findings :=
  ⟨List.nodup_nil, by simp, by simp, by simp, by simp⟩

/-- What is found in turn is found altogether; no alias is met twice. -/
theorem Advances.trans (first : Advances decls met found before between)
    (second : Advances decls more others between after) :
    Advances decls (met ++ more) (found ++ others) before after where
  nodup := by
    refine List.nodup_append.mpr ⟨first.nodup, second.nodup, ?_⟩
    rintro name old _ again rfl
    -- An alias met in the first part is known in the second.
    have known := (first.known name).mpr (.inl old)
    rw [second.new name again] at known
    cases known
  new name member := by
    rcases List.mem_append.mp member with old | again
    · exact first.new name old
    · have unknown := second.new name again
      by_contra held
      have known := (first.known name).mpr (.inr (Option.isSome_iff_ne_none.mpr held))
      rw [unknown] at known
      cases known
  declared name member :=
    (List.mem_append.mp member).elim (first.declared name) (second.declared name)
  known name := by
    rw [second.known, first.known, List.mem_append]
    tauto
  errors := by
    have step := second.errors.trans (first.errors.append_right _)
    -- The two parts only trade places with the errors of the aliases met in between.
    refine step.trans (List.perm_iff_count.mpr fun error => ?_)
    simp only [List.flatMap_append, List.count_append]
    omega

end Advances

/-- A step that finds some undefined names, whatever was found before. -/
def Finds {α : Type} (decls : TypeDecls) (step : Resolving α) (found : List Diagnostic) : Prop :=
  ∀ before, ∃ met, Advances decls met found before (step.run before).2

/-- A step whose result is as it should be, whatever was found before. -/
def Gives {α : Type} (step : Resolving α) (good : α → Prop) : Prop :=
  ∀ before, good (step.run before).1

/-- A step after which an alias has a target, or a mark that it is in progress. -/
def Meets {α : Type} (step : Resolving α) (name : String) : Prop :=
  ∀ before, ((step.run before).2.aliases.lookup name).isSome = true

section Steps

variable {α β : Type} {decls : TypeDecls} {step : Resolving α} {next : α → Resolving β}
  {found others : List Diagnostic} {good : α → Prop} {fine : β → Prop}

theorem Gives.pure {value : α} (holds : good value) : Gives (Pure.pure value) good :=
  fun _ => holds

theorem Gives.trivial (step : Resolving α) : Gives step fun _ => True :=
  fun _ => True.intro

theorem Gives.bind (first : Gives step good)
    (second : ∀ value, good value → Gives (next value) fine) :
    Gives (step >>= next) fine :=
  fun before => second _ (first before) _

theorem Finds.pure (decls : TypeDecls) (value : α) : Finds decls (Pure.pure value) [] :=
  fun before => ⟨[], Advances.refl decls before⟩

/-- What steps find in turn is what each of them finds. -/
theorem Finds.bind (first : Finds decls step found) (gives : Gives step good)
    (second : ∀ value, good value → Finds decls (next value) others) :
    Finds decls (step >>= next) (found ++ others) := by
  intro before
  obtain ⟨met, advance⟩ := first before
  obtain ⟨more, later⟩ := second _ (gives before) (step.run before).2
  exact ⟨met ++ more, advance.trans later⟩

/-- A step that finds the same whatever it is given needs no result of the one before. -/
theorem Finds.andThen (first : Finds decls step found)
    (second : ∀ value, Finds decls (next value) others) :
    Finds decls (step >>= next) (found ++ others) :=
  first.bind (.trivial step) fun value _ => second value

/-- Turning a result into another finds nothing more. -/
theorem Finds.map (first : Finds decls step found) (f : α → β) :
    Finds decls (step >>= fun value => Pure.pure (f value)) found := by
  have both := first.andThen fun value => Finds.pure decls (f value)
  rwa [List.append_nil] at both

/-- A reported error is found if it is that of an undefined name. -/
theorem Finds.report (decls : TypeDecls) (scope : FileScope) (offset : Nat) (error : TypeError) :
    Finds decls (reportError scope offset error)
      ([scope.diagnostic offset error].filter Diagnostic.isUndefined) := by
  intro before
  have run : (reportError scope offset error).run before =
      ((), { before with errors := before.errors ++ [scope.diagnostic offset error] }) := rfl
  rw [run]
  exact ⟨[], List.nodup_nil, by simp, by simp, by simp, by simp [List.filter_append]⟩

/-- An alias that was met stays met. -/
theorem Meets.andThen {name : String} (first : Meets step name)
    (second : ∀ value, Finds decls (next value) others) : Meets (step >>= next) name := by
  intro before
  obtain ⟨met, later⟩ := second (step.run before).1 (step.run before).2
  exact (later.known name).mpr (.inr (first before))

theorem Meets.behind {name : String} (step : Resolving α)
    (second : ∀ value, Meets (next value) name) : Meets (step >>= next) name :=
  fun before => second (step.run before).1 (step.run before).2

end Steps

section Resolve

variable {table : NameTable}

/-- The errors that a table owes for the names in an expression. -/
def NameTable.unknown (table : NameTable) (uses : List NameUse) : List Diagnostic :=
  unknownIn table.decls table.scope table.params uses

theorem NameTable.unknown_append (table : NameTable) (first second : List NameUse) :
    table.unknown (first ++ second) = table.unknown first ++ table.unknown second := by
  simp only [NameTable.unknown, unknownIn, List.filter_append, List.map_append]

theorem NameTable.unknown_of_known {use : NameUse}
    (known : use.isUnknown table.decls table.scope table.params = false) :
    table.unknown [use] = [] := by
  simp [NameTable.unknown, unknownIn, known]

theorem NameTable.unknown_of_unknown {use : NameUse}
    (unknown : use.isUnknown table.decls table.scope table.params = true) :
    table.unknown [use] = [table.scope.diagnostic use.start (.undefined use.name)] := by
  simp [NameTable.unknown, unknownIn, unknown]

/-- Asking for the target of a declared alias finds nothing but what its declaration owes. -/
def NameTable.IsSteady (table : NameTable) : Prop :=
  ∀ name decl, table.decls.lookup name = some decl → decl.spec.isAlias = true →
    Finds table.decls (table.aliasTarget name) []

/-- A declared name is never undefined, be it that of an alias leading back to itself. -/
theorem declared_finds (steady : table.IsSteady) {name : String} {decl : TypeDecl}
    (found : table.decls.lookup name = some decl) (start : Nat) :
    Finds table.decls (table.declared name start decl) [] := by
  unfold NameTable.declared
  split
  case isTrue second =>
    refine (steady name decl found second).andThen fun target => ?_
    split
    · exact .pure _ _
    · exact (Finds.report table.decls table.scope start (.recursiveAlias name)).map _
  case isFalse => exact .pure _ _

/-- A name that nothing declares is undefined unless a dot import may bring it in. -/
theorem undeclared_finds (table : NameTable) (name : String) (start : Nat) :
    Finds table.decls (table.undeclared name start)
      (if table.scope.dots.isEmpty then [table.scope.diagnostic start (.undefined name)] else []) := by
  unfold NameTable.undeclared
  split
  case h_1 none =>
    rw [none]
    exact (Finds.report table.decls table.scope start (.undefined name)).map _
  case h_2 package one =>
    rw [one]
    exact .pure _ _
  case h_3 several _ =>
    rw [if_neg fun empty => several (List.isEmpty_iff.mp empty)]
    exact .pure _ _

/-- A plain name is undefined if nothing in sight goes by it. -/
theorem resolveName_finds (steady : table.IsSteady) (name : String) (start : Nat) :
    Finds table.decls (table.resolveName name start) (table.unknown [.plain name start]) := by
  -- The places are tried in the order of the lookup: parameters, declarations, predeclared names.
  unfold NameTable.resolveName
  split
  case isTrue held =>
    rw [NameTable.unknown_of_known (by simp only [NameUse.isUnknown, held]; rfl)]
    exact .pure _ _
  case isFalse fresh =>
    split
    case h_1 decl found =>
      rw [NameTable.unknown_of_known (by simp [NameUse.isUnknown, TypeDecls.declares, found])]
      exact declared_finds steady found start
    case h_2 missing =>
      split
      case h_1 type found =>
        rw [NameTable.unknown_of_known (by simp [NameUse.isUnknown, found])]
        exact .pure _ _
      case h_2 other =>
        have owed : table.unknown [.plain name start] = if table.scope.dots.isEmpty then
            [table.scope.diagnostic start (.undefined name)] else [] := by
          split
          case isTrue none =>
            refine NameTable.unknown_of_unknown ?_
            rw [NameUse.isUnknown, TypeDecls.declares, missing, other, none,
              eq_false_of_ne_true fresh]
            rfl
          case isFalse some =>
            refine NameTable.unknown_of_known ?_
            rw [NameUse.isUnknown, eq_false_of_ne_true some, Bool.and_false]
        rw [owed]
        exact undeclared_finds table name start

/-- A package name is undefined if no import binds it. -/
theorem resolveQualified_finds (table : NameTable) (package : String) (start : Nat)
    (name : String) :
    Finds table.decls (table.resolveQualified package start name)
      (table.unknown [.package package start]) := by
  unfold NameTable.resolveQualified
  split
  case h_1 found bound =>
    rw [NameTable.unknown_of_known (by simp [NameUse.isUnknown, bound])]
    exact .pure _ _
  case h_2 free =>
    rw [NameTable.unknown_of_unknown (by simp [NameUse.isUnknown, free])]
    exact (Finds.report table.decls table.scope start (.undefined package)).map _

/-- That a step finds what a table owes for the names it uses carries over to steps in turn. -/
theorem finds_isGraded (table : NameTable) :
    IsGraded fun {α : Type} uses (step : Resolving α) _ =>
      Finds table.decls step (table.unknown uses) where
  pure value := .pure table.decls value
  bind first second := by
    rw [NameTable.unknown_append]
    exact first.andThen second

/-- Looking up a name finds it if it is unknown. -/
theorem finds_lookUps (steady : table.IsSteady) :
    LookUpsRelated (fun {α : Type} uses (step : Resolving α) _ =>
      Finds table.decls step (table.unknown uses)) table table where
  plain := resolveName_finds steady
  package := resolveQualified_finds table
  comment start := .report table.decls table.scope start .strayComment

/-- Resolving an expression finds each unknown name in it. -/
theorem TypeExpr.resolve_finds (steady : table.IsSteady) (expr : TypeExpr) :
    Finds table.decls (expr.resolve table) (table.unknown expr.uses) :=
  expr.resolve_related (finds_isGraded table) (finds_lookUps steady)

theorem SignatureExpr.resolve_finds (steady : table.IsSteady) (signature : SignatureExpr) :
    Finds table.decls (signature.resolve table) (table.unknown signature.uses) :=
  signature.resolve_related (finds_isGraded table) (finds_lookUps steady)

end Resolve

end Scaffold.Go
