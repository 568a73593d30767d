import Scaffold.Proofs.Go.Steps

/-! Aliases nest no deeper than there are declared types, so a limit on their depth that leaves room
for all of them is never reached. -/

namespace Scaffold.Go

/-- A table of aliases behind some steps: the same aliases are in progress as before, and targets
that were known have stayed. -/
structure Extends (before after : List (String × Option ResolvedType)) : Prop where
  marks : ∀ name, after.lookup name = some none ↔ before.lookup name = some none
  targets : ∀ name type, before.lookup name = some (some type) →
    after.lookup name = some (some type)

namespace Extends

variable {before between after : List (String × Option ResolvedType)}

theorem refl (aliases : List (String × Option ResolvedType)) : Extends aliases aliases :=
  ⟨fun _ => .rfl, fun _ _ held => held⟩

theorem trans (first : Extends before between) (second : Extends between after) :
    Extends before after :=
  ⟨fun name => (second.marks name).trans (first.marks name),
    fun name type held => second.targets name type (first.targets name type held)⟩

/-- What was met stays met. -/
theorem isSome (grown : Extends before after) {name : String}
    (met : (before.lookup name).isSome = true) : (after.lookup name).isSome = true := by
  cases held : before.lookup name with
  | none => simp [held] at met
  | some known =>
    cases known with
    | none => rw [(grown.marks name).mpr held]; rfl
    | some type => rw [grown.targets name type held]; rfl

/-- An alias is in progress only while its own right-hand side is resolved. -/
theorem meet {name : String} {type : ResolvedType} (new : before.lookup name = none)
    (inner : Extends (insertKeyed name none before) after) :
    Extends before (insertKeyed name (some type) after) where
  marks other := by
    by_cases same : other = name
    · subst same
      rw [lookup_insertKeyed, new]
      simp
    · rw [lookup_insertKeyed_of_ne _ _ same, inner.marks, lookup_insertKeyed_of_ne _ _ same]
  targets other known held := by
    have differs : other ≠ name := by
      rintro rfl
      rw [new] at held
      cases held
    rw [lookup_insertKeyed_of_ne _ _ differs]
    exact inner.targets other known (by rwa [lookup_insertKeyed_of_ne _ _ differs])

end Extends

section Growth

/-- A step that extends the table of aliases. -/
def ExtendsAliases {α : Type} (step : Resolving α) : Prop :=
  ∀ before, Extends before.aliases (step.run before).2.aliases

theorem extends_isStepwise : IsStepwise ExtendsAliases where
  pure _ before := Extends.refl before.aliases
  report _ _ _ _ before := Extends.refl before.aliases
  bind first second before := (first before).trans (second _ _)

theorem extends_loops : LoopsHold ExtendsAliases :=
  fun _ _ _ before => Extends.refl before.aliases

variable {package : PackageRef} {decls : TypeDecls} {shapes : List (String × Shape)}

/-- Asking for the target of an alias extends the table. -/
theorem extends_aliasTargetWithin (depth : Nat) {name : String} {decl : TypeDecl}
    (found : decls.lookup name = some decl) :
    ExtendsAliases (aliasTargetWithin package decls shapes depth name) := by
  -- On the depth: an alias inside the right-hand side has one less.
  induction depth generalizing name decl with
  | zero => exact extends_isStepwise.pure _
  | succ depth ih =>
    intro before
    cases held : before.aliases.lookup name with
    | some known =>
      rw [aliasTargetWithin_known held]
      exact Extends.refl before.aliases
    | none =>
      have targets : (aliasTable package decls shapes depth decl).TargetsHold ExtendsAliases :=
        fun _ _ found _ => ih found
      rw [aliasTargetWithin_new held found]
      exact Extends.meet held (decl.spec.type.resolve_stepwise extends_isStepwise
        (targets.names extends_isStepwise extends_loops)
        { before with aliases := insertKeyed name none before.aliases })

theorem extends_targets (scope : FileScope) (params : List String) :
    (nameTable package decls shapes scope params).TargetsHold ExtendsAliases :=
  fun _ _ found _ => extends_aliasTargetWithin _ found

theorem extends_names (scope : FileScope) (params : List String) :
    (nameTable package decls shapes scope params).NamesHold ExtendsAliases :=
  (extends_targets scope params).names extends_isStepwise extends_loops

end Growth

section Unmet

/-- How many declared types are no aliases that were met before. -/
def unmet (decls : TypeDecls) (aliases : List (String × Option ResolvedType)) : Nat :=
  (decls.filter fun entry => (aliases.lookup entry.1).isNone).length

variable {decls : TypeDecls} {before after : List (String × Option ResolvedType)}

theorem unmet_le_length (decls : TypeDecls) (aliases : List (String × Option ResolvedType)) :
    unmet decls aliases ≤ decls.length :=
  List.length_filter_le _ _

/-- There are never more left to meet than before. -/
theorem Extends.unmet_le (grown : Extends before after) :
    unmet decls after ≤ unmet decls before := by
  refine (List.monotone_filter_right decls fun entry left => ?_).length_le
  -- What was met stays met, so what is left was left before.
  by_contra met
  have known : (before.lookup entry.1).isSome = true := by
    simpa [Option.isSome_iff_ne_none] using met
  have still := grown.isSome known
  simp [Option.isNone_iff_eq_none.mp left] at still

/-- Meeting a declared type leaves one less. -/
theorem unmet_insertKeyed_lt {name : String} {decl : TypeDecl} (new : before.lookup name = none)
    (found : decls.lookup name = some decl) (target : Option ResolvedType) :
    unmet decls (insertKeyed name target before) < unmet decls before := by
  have others : (decls.filter fun entry =>
      ((insertKeyed name target before).lookup entry.1).isNone) =
      (decls.filter fun entry => (before.lookup entry.1).isNone).filter fun entry =>
        entry.1 != name := by
    rw [List.filter_filter]
    refine List.filter_congr fun entry _ => ?_
    by_cases same : entry.1 = name
    · simp [same, lookup_insertKeyed]
    · simp [same, lookup_insertKeyed_of_ne]
  rw [unmet, unmet, others]
  refine List.length_filter_lt_length_iff_exists.mpr ⟨(name, decl), ?_, by simp⟩
  exact List.mem_filter.mpr ⟨mem_of_lookup found, by simp [new]⟩

end Unmet

/-- Two steps that do the same while no more than some number of declared types are left to meet. -/
def SameWithin (decls : TypeDecls) (limit : Nat) {α : Type} (step other : Resolving α) : Prop :=
  ∀ before, unmet decls before.aliases ≤ limit → step.run before = other.run before ∧
    unmet decls (step.run before).2.aliases ≤ limit

section Depth

variable {package : PackageRef} {decls : TypeDecls} {shapes : List (String × Shape)}

/-- That steps do the same within a limit carries over to steps in turn. -/
theorem sameWithin_isLockstep (decls : TypeDecls) (limit : Nat) :
    IsLockstep fun {α : Type} (step other : Resolving α) => SameWithin decls limit step other where
  pure _ _ left := ⟨rfl, left⟩
  report _ _ _ _ _ left := ⟨rfl, left⟩
  bind first second before left := by
    obtain ⟨same, fewer⟩ := first before left
    obtain ⟨again, fewest⟩ := second _ _ fewer
    rw [StateT.run_bind, StateT.run_bind, ← same]
    exact ⟨again, fewest⟩

/-- Tables that ask for aliases in the same way give the same types to names. -/
theorem sameWithin_resolveName {limit : Nat} {table : NameTable}
    {target : String → Resolving (Option ResolvedType)}
    (targets : ∀ name decl, table.decls.lookup name = some decl →
      SameWithin decls limit (table.aliasTarget name) (target name)) (name : String) (start : Nat) :
    SameWithin decls limit (table.resolveName name start)
      ((table.withTargets target).resolveName name start) := by
  have lockstep := sameWithin_isLockstep decls limit
  refine NameTable.resolveName_lockstep lockstep target fun decl _ found => ?_
  unfold NameTable.declared
  split
  case isTrue second =>
    refine lockstep.bind (targets name decl found) fun known => ?_
    cases known with
    | some type => exact lockstep.pure _
    | none => exact fun _ left => ⟨rfl, left⟩
  case isFalse => exact lockstep.pure _

/-- With room for all aliases that are left to meet, the depth that remains does not matter. -/
theorem sameWithin_aliasTargetWithin {limit depth deeper : Nat} (room : limit < depth)
    (more : limit < deeper) {name : String} {decl : TypeDecl}
    (found : decls.lookup name = some decl) :
    SameWithin decls limit (aliasTargetWithin package decls shapes depth name)
      (aliasTargetWithin package decls shapes deeper name) := by
  -- On the number of types that are left: inside the right-hand side of an alias there are fewer.
  induction limit using Nat.strong_induction_on generalizing depth deeper name decl with
  | _ limit ih =>
    intro before left
    obtain ⟨depth, rfl⟩ := Nat.exists_eq_add_of_lt room
    obtain ⟨deeper, rfl⟩ := Nat.exists_eq_add_of_lt more
    refine ⟨?_, (extends_aliasTargetWithin _ found before).unmet_le.trans left⟩
    cases held : before.aliases.lookup name with
    | some known => rw [aliasTargetWithin_known held, aliasTargetWithin_known held]
    | none =>
      have smaller : unmet decls (insertKeyed name none before.aliases) < limit :=
        (unmet_insertKeyed_lt held found none).trans_le left
      have inner : SameWithin decls (unmet decls (insertKeyed name none before.aliases))
          (decl.spec.type.resolve (aliasTable package decls shapes (limit + depth) decl))
          (decl.spec.type.resolve (aliasTable package decls shapes (limit + deeper) decl)) :=
        decl.spec.type.resolve_lockstep (sameWithin_isLockstep decls _) _ fun name start _ =>
          sameWithin_resolveName (fun _ _ declared =>
            ih _ smaller (by omega) (by omega) declared) name start
      rw [aliasTargetWithin_new held found, aliasTargetWithin_new held found]
      dsimp only
      rw [(inner { before with aliases := insertKeyed name none before.aliases } le_rfl).1]

/-- What is neither known nor declared has no target. -/
theorem aliasTargetWithin_undeclared {name : String} {before : Findings}
    (held : before.aliases.lookup name = none) (missing : decls.lookup name = none) (depth : Nat) :
    (aliasTargetWithin package decls shapes (depth + 1) name).run before = (none, before) := by
  rw [aliasTargetWithin]
  simp only [StateT.run_bind, StateT.run_get, pure_bind, held, missing]
  rfl

/-- The limit on the depth of aliases is never reached: with any more depth, the same is done. -/
theorem aliasTargetWithin_add (package : PackageRef) (decls : TypeDecls)
    (shapes : List (String × Shape)) (more : Nat) :
    aliasTargetWithin package decls shapes (decls.length + 1 + more) =
      aliasTargetWithin package decls shapes (decls.length + 1) := by
  funext name
  refine StateT.ext fun before => ?_
  rw [Nat.add_right_comm]
  cases found : decls.lookup name with
  | some decl =>
    exact (sameWithin_aliasTargetWithin (by omega) (by omega) found before
      (unmet_le_length decls before.aliases)).1
  | none =>
    cases held : before.aliases.lookup name with
    | some known => rw [aliasTargetWithin_known held, aliasTargetWithin_known held]
    | none => rw [aliasTargetWithin_undeclared held found, aliasTargetWithin_undeclared held found]

end Depth

end Scaffold.Go
