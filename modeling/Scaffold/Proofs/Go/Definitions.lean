import Scaffold.Proofs.Go.Leads

/-! What declared types are defined as: a definition shows what its right-hand side leads to, and an
alias is known by its definition. -/

namespace Scaffold.Go

/-- No file that declares types has an import of a path. -/
def TypeDecls.Lack (decls : TypeDecls) (path : String) : Prop :=
  ∀ name decl, decls.lookup name = some decl → decl.scope.Lacks path

/-- The targets that are known show what the right-hand sides of their aliases lead to. -/
def AllHeads (package : PackageRef) (decls : TypeDecls) (findings : Findings) : Prop :=
  ∀ name type decl, findings.aliases.lookup name = some (some type) →
    decls.lookup name = some decl →
      Heads package decls [] decl.scope findings (decl.lead decls) type

section Known

variable {package : PackageRef} {decls : TypeDecls}

/-- Known targets show what they did when more is found. -/
theorem AllHeads.mono {before after : Findings} (heads : AllHeads package decls before)
    (keeps : before.Keeps after) (same : after.aliases = before.aliases) :
    AllHeads package decls after :=
  fun name type decl held found => (heads name type decl (same ▸ held) found).mono keeps

/-- An alias without a target may be marked as one in progress, or known by a target that shows what
its right-hand side leads to. -/
theorem AllHeads.insert {findings : Findings} (heads : AllHeads package decls findings)
    {name : String} {own : Option ResolvedType}
    (new : ∀ type, findings.aliases.lookup name ≠ some (some type))
    (shows : ∀ type ∈ own, ∀ decl, decls.lookup name = some decl →
      Heads package decls [] decl.scope findings (decl.lead decls) type) :
    AllHeads package decls
      { findings with aliases := insertKeyed name own findings.aliases } := by
  have keeps : findings.Keeps
      { findings with aliases := insertKeyed name own findings.aliases } := by
    refine ⟨fun other type held => ?_, List.Subset.refl _⟩
    have differs : other ≠ name := by
      rintro rfl
      exact new type held
    rwa [lookup_insertKeyed_of_ne _ _ differs]
  intro other type decl held found
  refine Heads.mono ?_ keeps
  have known := forall_known_insert
    (fun name type held decl found => heads name type decl held found) shows
  exact known other type held decl found

/-- The right-hand side of a declaration stands for a type that shows what it leads to. -/
theorem rightHandSide_head (lack : decls.Lack package.path) {name : String} {decl : TypeDecl}
    (found : decls.lookup name = some decl) (depth : Nat) (before : Findings) :
    Heads package decls [] decl.scope
      ((decl.spec.type.resolve (aliasTable package decls [] depth decl)).run before).2
      (decl.lead decls)
      ((decl.spec.type.resolve (aliasTable package decls [] depth decl)).run before).1 := by
  have asks : (aliasTable package decls [] depth decl).AsksOnce := aliasTable_asksOnce depth decl
  exact decl.spec.type.resolve_head asks (lack name decl found) before

/-- A step that leaves known targets with what their right-hand sides lead to. -/
structure KeepsHeads (package : PackageRef) (decls : TypeDecls) {α : Type} (step : Resolving α) :
    Prop where
  grows : Grows step
  grown : ExtendsAliases step
  keeps : ∀ before, AllHeads package decls before → AllHeads package decls (step.run before).2

theorem keepsHeads_report (scope : FileScope) (offset : Nat) (error : TypeError) :
    KeepsHeads package decls (reportError scope offset error) where
  grows := grows_report scope offset error
  grown before := Extends.refl before.aliases
  keeps before heads := heads.mono
    (keeps_of_grows (grows_report scope offset error) (fun before => Extends.refl before.aliases)
      before) rfl

theorem keepsHeads_isStepwise : IsStepwise (KeepsHeads package decls) where
  pure value := ⟨grows_isStepwise.pure value, extends_isStepwise.pure value, fun _ heads => heads⟩
  report scope offset error _ := keepsHeads_report scope offset error
  bind first second :=
    ⟨grows_isStepwise.bind first.grows fun value => (second value).grows,
      extends_isStepwise.bind first.grown fun value => (second value).grown,
      fun before heads => (second _).keeps _ (first.keeps before heads)⟩

theorem keepsHeads_loops : LoopsHold (KeepsHeads package decls) :=
  fun scope offset name => keepsHeads_report scope offset (.recursiveAlias name)

/-- The target of an alias shows what the right-hand side of the alias leads to. -/
theorem aliasTargetWithin_keepsHeads (lack : decls.Lack package.path) (depth : Nat) {name : String}
    {decl : TypeDecl} (found : decls.lookup name = some decl) :
    KeepsHeads package decls (aliasTargetWithin package decls [] depth name) := by
  -- On the depth: an alias inside the right-hand side has one less.
  induction depth generalizing name decl with
  | zero => exact keepsHeads_isStepwise.pure none
  | succ depth ih =>
    refine ⟨grows_aliasTargetWithin _ found, extends_aliasTargetWithin _ found, ?_⟩
    intro before heads
    cases held : before.aliases.lookup name with
    | some known => rwa [aliasTargetWithin_known held]
    | none =>
      rw [aliasTargetWithin_new held found]
      have targets : (aliasTable package decls [] depth decl).TargetsHold
          (KeepsHeads package decls) := fun _ _ found _ => ih found
      have keeps := decl.spec.type.resolve_stepwise keepsHeads_isStepwise
        (targets.names keepsHeads_isStepwise keepsHeads_loops)
      have marked : AllHeads package decls
          { before with aliases := insertKeyed name none before.aliases } :=
        heads.insert (by simp [held]) (by simp)
      have own := rightHandSide_head lack found depth
        { before with aliases := insertKeyed name none before.aliases }
      -- The alias is still in progress when its right-hand side is resolved.
      have grey := ((keeps.grown { before with aliases := insertKeyed name none before.aliases
        }).marks name).mpr (lookup_insertKeyed name none before.aliases)
      refine (keeps.keeps _ marked).insert ?_ ?_
      · intro type known
        rw [grey] at known
        cases known
      · rintro _ ⟨⟩ inner declared
        cases found.symm.trans declared
        exact own

theorem keepsHeads_targets (lack : decls.Lack package.path) (scope : FileScope)
    (params : List String) :
    (nameTable package decls [] scope params).TargetsHold (KeepsHeads package decls) :=
  fun _ _ found _ => aliasTargetWithin_keepsHeads lack _ found

end Known

/-- A type that a declaration is defined as: it shows what the right-hand side leads to, and an alias
is known by it. -/
structure Defines (package : PackageRef) (decls : TypeDecls) (after : Findings) (name : String)
    (decl : TypeDecl) (type : ResolvedType) : Prop where
  heads : Heads package decls [] decl.scope after (decl.lead decls) type
  known : decl.spec.isAlias = true → after.aliases.lookup name = some (some type)

section Definitions

variable {package : PackageRef} {decls : TypeDecls}

/-- A definition is none the worse for what is found later. -/
theorem Defines.mono {before after : Findings} {name : String} {decl : TypeDecl}
    {type : ResolvedType} (defines : Defines package decls before name decl type)
    (keeps : before.Keeps after) : Defines package decls after name decl type :=
  ⟨defines.heads.mono keeps, fun second => keeps.targets name type (defines.known second)⟩

theorem keepsHeads_resolveDefinition (lack : decls.Lack package.path) {name : String}
    {decl : TypeDecl} (found : decls.lookup name = some decl) :
    KeepsHeads package decls (resolveDefinition package decls name decl) := by
  unfold resolveDefinition
  split
  · exact aliasTargetWithin_keepsHeads lack _ found
  · exact keepsHeads_isStepwise.map (TypeExpr.resolve_stepwise keepsHeads_isStepwise
      ((keepsHeads_targets lack _ _).names keepsHeads_isStepwise keepsHeads_loops) _) some

/-- A declaration has a definition. -/
theorem resolveDefinition_defines (lack : decls.Lack package.path) {name : String}
    {decl : TypeDecl} (found : decls.lookup name = some decl) {before : Findings}
    (idle : before.aliases.lookup name ≠ some none) (heads : AllHeads package decls before) :
    ∃ type, ((resolveDefinition package decls name decl).run before).1 = some type ∧
      Defines package decls ((resolveDefinition package decls name decl).run before).2 name decl
        type := by
  have after := (keepsHeads_resolveDefinition lack found).keeps before heads
  cases second : decl.spec.isAlias with
  | true =>
    have step : resolveDefinition package decls name decl =
        aliasTargetWithin package decls [] (decls.length + 1) name := by
      rw [resolveDefinition, second]
      rfl
    rw [step] at after ⊢
    obtain ⟨type, given⟩ : ∃ type, ((aliasTargetWithin package decls [] (decls.length + 1)
        name).run before).1 = some type :=
      Option.isSome_iff_exists.mp (aliasTargetWithin_isSome found idle [] decls.length)
    have known := aliasTargetWithin_isKnown found (Prod.ext given rfl)
    exact ⟨type, given, after name type decl known found, fun _ => known⟩
  | false =>
    have step : resolveDefinition package decls name decl = some <$>
        decl.spec.type.resolve (nameTable package decls [] decl.scope decl.spec.params) := by
      rw [resolveDefinition, second]
      rfl
    rw [step]
    have own := rightHandSide_head lack found (decls.length + 1) before
    exact ⟨_, rfl, own, fun other => by rw [second] at other; cases other⟩

/-- All declarations have definitions, in their order. -/
theorem resolveDefinitions_define (lack : decls.Lack package.path) : ∀ entries : TypeDecls,
    AreDeclared decls entries → ∀ before, (∀ name, before.aliases.lookup name ≠ some none) →
      AllHeads package decls before →
      List.Forall₂ (fun entry definition => definition.1 = entry.1 ∧
          Defines package decls ((resolveDefinitions package decls entries).run before).2 entry.1
            entry.2 definition.2)
        entries ((resolveDefinitions package decls entries).run before).1
  | [], _, _, _, _ => .nil
  | (name, decl) :: rest, declared, before, idle, heads => by
    obtain ⟨found, others⟩ := List.forall_mem_cons.mp declared
    replace found : decls.lookup name = some decl := found
    -- On the declarations: what is found behind the first one is kept behind the rest.
    have first := keepsHeads_resolveDefinition lack found
    obtain ⟨type, given, defines⟩ := resolveDefinition_defines lack found (idle name) heads
    have keeps : ((resolveDefinition package decls name decl).run before).2.Keeps
        ((resolveDefinitions package decls rest).run
          ((resolveDefinition package decls name decl).run before).2).2 :=
      keeps_of_grows (grows_resolveDefinitions others) (extends_resolveDefinitions others) _
    have later := resolveDefinitions_define lack rest others _
      (fun name held => idle name (((first.grown before).marks name).mp held))
      (first.keeps before heads)
    rw [resolveDefinitions_run]
    dsimp only
    rw [given]
    exact .cons ⟨rfl, defines.mono keeps⟩ later

end Definitions

section Files

variable {known : List (String × String)} {path : String}

/-- No file has an import of a path. -/
def NoneImports (path : String) (files : List SourceFile) : Prop :=
  ∀ file ∈ files, ∀ spec ∈ file.imports, spec.path ≠ path

/-- An import of another path is none of the path. -/
theorem FileScope.Lacks.bind {scope : FileScope} (lacks : scope.Lacks path) {spec : ImportSpec}
    (other : spec.path ≠ path) : (FileScope.bind known scope spec).Lacks path := by
  unfold FileScope.bind
  dsimp only
  split
  · exact lacks
  · split
    · refine ⟨fun package member => ?_, lacks.2⟩
      rcases List.mem_append.mp member with held | new
      · exact lacks.1 package held
      · exact List.mem_singleton.mp new ▸ other
    · refine ⟨lacks.1, fun name package found => ?_⟩
      rw [List.lookup_cons] at found
      split at found
      · exact Option.some.inj found ▸ other
      · exact lacks.2 name package found

/-- What a file does not import is not in its scope. -/
theorem ofFile_lacks {file : SourceFile} (others : ∀ spec ∈ file.imports, spec.path ≠ path) :
    (FileScope.ofFile known file).Lacks path := by
  have begins : FileScope.Lacks ⟨file.path, file.lines, [], []⟩ path := ⟨by simp, by simp⟩
  rw [FileScope.ofFile]
  generalize (⟨file.path, file.lines, [], []⟩ : FileScope) = scope at begins
  generalize file.imports = specs at others
  induction specs generalizing scope with
  | nil => exact begins
  | cons spec rest ih =>
    obtain ⟨first, later⟩ := List.forall_mem_cons.mp others
    exact ih _ (begins.bind first) later

/-- Declarations that are kept are those of the files. -/
theorem forall_addTypes {holds : TypeDecl → Prop} {types : List (SourceFile × TypeSpec)}
    (each : ∀ type ∈ types, holds (keptType known type).2) {decls : TypeDecls × List Diagnostic}
    (kept : ∀ name decl, decls.1.lookup name = some decl → holds decl) :
    ∀ name decl, (addTypes known decls types).1.lookup name = some decl → holds decl := by
  induction types generalizing decls with
  | nil => exact kept
  | cons type rest ih =>
    obtain ⟨first, later⟩ := List.forall_mem_cons.mp each
    refine ih later fun name decl found => ?_
    dsimp only at found
    cases new : isNewType decls.1 type with
    | false =>
      rw [add_of_old new] at found
      exact kept name decl found
    | true =>
      rw [add_of_new new] at found
      by_cases same : name = type.2.name
      · rw [same, lookup_insertKeyed] at found
        exact Option.some.inj found ▸ first
      · rw [lookup_insertKeyed_of_ne _ _ same] at found
        exact kept name decl found

/-- Files that do not import a path do not have it in scope where they declare types. -/
theorem typesIn_lack {files : List SourceFile} (abroad : NoneImports path files) :
    (typesIn known files).Lack path := by
  rw [typesIn, collect_eq]
  refine forall_addTypes (fun type member => ?_) (by simp)
  obtain ⟨file, among, here⟩ := List.mem_flatMap.mp member
  obtain ⟨spec, -, rfl⟩ := List.mem_map.mp here
  exact ofFile_lacks (abroad file among)

end Files

section Packages

variable {metadata : Metadata} {files : List SourceFile}

/-- The declared types of some files as they are resolved in a package, and what is found then. -/
def resolvedIn (metadata : Metadata) (files : List SourceFile) :
    List (String × ResolvedType) × Findings :=
  definitionsOf metadata (typesIn metadata.deps files)
    (TypeDecls.collect (scopedFiles metadata.deps files)).2

/-- Every declared type has a definition. -/
theorem resolvedIn_define (abroad : NoneImports metadata.path files) {name : String}
    {decl : TypeDecl} (found : (typesIn metadata.deps files).lookup name = some decl) :
    ∃ type, (resolvedIn metadata files).1.lookup name = some type ∧
      Defines metadata.ref (typesIn metadata.deps files) (resolvedIn metadata files).2 name decl
        type := by
  have lack : (typesIn metadata.deps files).Lack metadata.ref.path := typesIn_lack abroad
  have declared : AreDeclared (typesIn metadata.deps files) (typesIn metadata.deps files) :=
    areDeclared_of_inKeyOrder (inKeyOrder_collect metadata.deps files)
  exact lookup_of_forall₂ (resolveDefinitions_define lack _ declared ⟨[], _⟩ (by simp)
    (by simp [AllHeads])) found

/-- What is reported for declared types is reported for the package. -/
theorem resolvedIn_errors (metadata : Metadata) (files : List SourceFile) :
    (resolvedIn metadata files).2.errors ⊆ (Package.ofFiles metadata files).errors := by
  intro error member
  exact (ofFiles_isSettled metadata files).errors.mem_iff.mpr (List.mem_append_left _ member)

end Packages

end Scaffold.Go
