import Scaffold.Proofs.Go.Findings
import Scaffold.Proofs.Keyed

/-! Aliases are looked into once each, the first time that something asks for their target. -/

namespace Scaffold.Go

variable {package : PackageRef} {decls : TypeDecls} {shapes : List (String × Shape)}

/-- What holds of all known targets still does when an alias is marked as one in progress, or known
by a target of which it holds. -/
theorem forall_known_insert {holds : String → ResolvedType → Prop}
    {aliases : List (String × Option ResolvedType)}
    (known : ∀ name type, aliases.lookup name = some (some type) → holds name type)
    {name : String} {target : Option ResolvedType} (own : ∀ type ∈ target, holds name type) :
    ∀ other type, (insertKeyed name target aliases).lookup other = some (some type) →
      holds other type := by
  intro other type held
  by_cases here : other = name
  · subst here
    rw [lookup_insertKeyed] at held
    exact own type (Option.some.inj held)
  · rw [lookup_insertKeyed_of_ne _ _ here] at held
    exact known other type held

/-- An alias met for the first time adds what its right-hand side owes, between its two marks. -/
theorem Advances.meet {met : List String} {name : String} {decl : TypeDecl}
    {target : Option ResolvedType} {before after : Findings}
    (new : before.aliases.lookup name = none) (found : decls.lookup name = some decl)
    (second : decl.spec.isAlias = true)
    (inner : Advances decls met (owedBy decls name)
      { before with aliases := insertKeyed name none before.aliases } after) :
    Advances decls (name :: met) [] before
      { after with aliases := insertKeyed name target after.aliases } where
  nodup := by
    -- The first mark keeps the alias from being met again on the way.
    refine List.nodup_cons.mpr ⟨fun again => ?_, inner.nodup⟩
    have unknown := inner.new name again
    rw [lookup_insertKeyed] at unknown
    cases unknown
  new other member := by
    rcases List.mem_cons.mp member with rfl | later
    · exact new
    · have unknown := inner.new other later
      have differs : other ≠ name := by
        rintro rfl
        rw [lookup_insertKeyed] at unknown
        cases unknown
      rwa [lookup_insertKeyed_of_ne _ _ differs] at unknown
  declared other member := by
    rcases List.mem_cons.mp member with rfl | later
    · exact ⟨decl, found, second⟩
    · exact inner.declared other later
  known other := by
    rw [isSome_lookup_insertKeyed, inner.known, isSome_lookup_insertKeyed, List.mem_cons]
    tauto
  errors := by simpa using inner.errors

/-- What the right-hand side of an alias is looked up in, with some depth left for others. -/
def aliasTable (package : PackageRef) (decls : TypeDecls) (shapes : List (String × Shape))
    (depth : Nat) (decl : TypeDecl) : NameTable :=
  ⟨package, decls, shapes, decl.scope, decl.spec.params,
    aliasTargetWithin package decls shapes depth⟩

/-- An alias that was met before is not looked into again. -/
theorem aliasTargetWithin_known {name : String} {known : Option ResolvedType} {before : Findings}
    (held : before.aliases.lookup name = some known) (depth : Nat) :
    (aliasTargetWithin package decls shapes (depth + 1) name).run before = (known, before) := by
  rw [aliasTargetWithin]
  simp only [StateT.run_bind, StateT.run_get, pure_bind, held]
  rfl

/-- An alias that is met first is marked, resolved, and then known by its target. -/
theorem aliasTargetWithin_new {name : String} {decl : TypeDecl} {before : Findings}
    (held : before.aliases.lookup name = none) (found : decls.lookup name = some decl)
    (depth : Nat) :
    (aliasTargetWithin package decls shapes (depth + 1) name).run before =
      let marked := { before with aliases := insertKeyed name none before.aliases }
      let inner := (decl.spec.type.resolve (aliasTable package decls shapes depth decl)).run marked
      (some inner.1,
        { inner.2 with aliases := insertKeyed name (some inner.1) inner.2.aliases }) := by
  rw [aliasTargetWithin]
  simp only [StateT.run_bind, StateT.run_get, pure_bind, held, found]
  rfl

/-- The target of a declared alias is looked into once, whatever the depth left. -/
theorem finds_aliasTargetWithin (depth : Nat) {name : String} {decl : TypeDecl}
    (found : decls.lookup name = some decl) (second : decl.spec.isAlias = true) :
    Finds decls (aliasTargetWithin package decls shapes depth name) [] := by
  -- On the depth: an alias inside the right-hand side has one less.
  induction depth generalizing name decl with
  | zero => exact .pure _ _
  | succ depth ih =>
    intro before
    cases held : before.aliases.lookup name with
    | some known =>
      rw [aliasTargetWithin_known held]
      exact ⟨[], Advances.refl decls before⟩
    | none =>
      have steady : (aliasTable package decls shapes depth decl).IsSteady :=
        fun name decl found second => ih found second
      obtain ⟨met, inner⟩ := decl.spec.type.resolve_finds steady
        { before with aliases := insertKeyed name none before.aliases }
      rw [aliasTargetWithin_new held found]
      exact ⟨name :: met, Advances.meet held found second (owedBy_eq found ▸ inner)⟩

/-- Asking for the target of a declared alias meets it, while there is depth left. -/
theorem meets_aliasTargetWithin (depth : Nat) {name : String} {decl : TypeDecl}
    (found : decls.lookup name = some decl) :
    Meets (aliasTargetWithin package decls shapes (depth + 1) name) name := by
  intro before
  cases held : before.aliases.lookup name with
  | some known => rw [aliasTargetWithin_known held, held]; rfl
  | none => rw [aliasTargetWithin_new held found, lookup_insertKeyed]; rfl

/-- The names in sight of a file of the package are steady. -/
theorem nameTable_isSteady (scope : FileScope) (params : List String) :
    (nameTable package decls shapes scope params).IsSteady :=
  fun _ _ found second => finds_aliasTargetWithin _ found second

/-- Some declarations are among those that names are looked up in. -/
def AreDeclared (decls entries : TypeDecls) : Prop :=
  ∀ entry ∈ entries, decls.lookup entry.1 = some entry.2

/-- Resolving declarations finds what each definition owes; aliases are left to their marks. -/
theorem resolveDefinitions_finds (package : PackageRef) :
    ∀ entries : TypeDecls, AreDeclared decls entries →
      Finds decls (resolveDefinitions package decls entries)
        ((entries.filter fun entry => !entry.2.spec.isAlias).flatMap
          fun entry => owedBy decls entry.1)
  | [], _ => .pure _ _
  | (name, decl) :: rest, declared => by
    obtain ⟨found, others⟩ := List.forall_mem_cons.mp declared
    have later := resolveDefinitions_finds package rest others
    have steady : (nameTable package decls [] decl.scope decl.spec.params).IsSteady :=
      nameTable_isSteady decl.scope decl.spec.params
    rw [resolveDefinitions]
    cases second : decl.spec.isAlias with
    | true =>
      -- What an alias owes is counted where it is met first, which may be in another declaration.
      simp only [List.filter_cons, second]
      exact (steady name decl found second).andThen fun type => later.map _
    | false =>
      simp only [List.filter_cons, second]
      rw [Bool.not_false, if_pos rfl, List.flatMap_cons, owedBy_eq found]
      exact ((decl.spec.type.resolve_finds steady).map some).andThen fun type => later.map _

/-- Every declared alias is met when all declarations are resolved. -/
theorem resolveDefinitions_meets (package : PackageRef) :
    ∀ entries : TypeDecls, AreDeclared decls entries → ∀ entry ∈ entries,
      entry.2.spec.isAlias = true → Meets (resolveDefinitions package decls entries) entry.1
  | [], _ => by simp
  | (name, decl) :: rest, declared => by
    obtain ⟨found, others⟩ := List.forall_mem_cons.mp declared
    rw [resolveDefinitions]
    rintro entry member second
    rcases List.mem_cons.mp member with rfl | later
    -- This alias is met here, and what is met stays met.
    · rw [if_pos second]
      exact (meets_aliasTargetWithin _ found).andThen fun type =>
        (resolveDefinitions_finds package rest others).map _
    · have rests := resolveDefinitions_meets package rest others entry later second
      split <;> exact Meets.behind _ fun type => rests.andThen fun more => Finds.pure decls _

end Scaffold.Go
