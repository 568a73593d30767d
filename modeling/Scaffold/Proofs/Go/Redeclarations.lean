import Mathlib.Data.Finset.Card
import Scaffold.Proofs.Go.FileOrder

/-! What is declared again: each declaration whose key an earlier one has is reported once, and
nothing else is. -/

namespace Scaffold.Go

/-- The base type of a receiver as written, if it is one that the package declares. -/
def acceptedBase? (isDeclared : String → Bool) (params : List ParamExpr) : Option String := do
  let param ← params.find? fun param => !param.variadic
  let (base, _) ← param.type.receiverBase?
  if isDeclared base then some base else none

/-- The key that a function goes by; a method has one if its receiver is accepted. -/
def FuncDecl.key? (isDeclared : String → Bool) (decl : FuncDecl) : Option FuncKey :=
  match decl.receiver with
  | none => some (none, decl.name)
  | some params => (acceptedBase? isDeclared params).map fun base => (some base, decl.name)

/-- A declaration by the key it has, with the error that it is if the key is taken. -/
abbrev Entry := FuncKey × Diagnostic

/-- A type by its name. -/
def typeEntry (type : SourceFile × TypeSpec) : Entry :=
  ((none, type.2.name),
    ⟨type.1.path, type.1.lines.position type.2.start, .redeclared type.2.name⟩)

/-- The types that files declare by names that are not blank, in source order. -/
def typeEntries (files : List SourceFile) : List Entry :=
  ((declaredTypes files).filter isNamed).map typeEntry

/-- A function or method by its key, unless any number of functions may share that. -/
def keyedFunc? (isDeclared : String → Bool) (file : SourceFile) (decl : FuncDecl) : Option Entry :=
  ((decl.key? isDeclared).filter fun key => !key.isShared).map fun key =>
    (key, ⟨file.path, file.lines.position decl.nameStart, key.error⟩)

/-- The functions and methods that files declare by keys of their own, in source order. -/
def funcEntries (files : List SourceFile) : List Entry :=
  files.flatMap fun file => file.funcDecls.filterMap (keyedFunc? (declaresType files) file)

/-- What files declare: all types first, then functions and methods. -/
def entriesOf (files : List SourceFile) : List Entry :=
  typeEntries files ++ funcEntries files

/-- The errors of the declarations whose keys stand among those of earlier ones. -/
def repeatedIn (entries : List Entry) : List Diagnostic :=
  entries.zipIdx.filterMap fun (entry, place) =>
    if ((entries.take place).map Prod.fst).contains entry.1 then some entry.2 else none

section Behind

/-- The errors of declarations whose keys were seen before, each being seen from then on. -/
def repeatedBehind (seen : List FuncKey) : List Entry → List Diagnostic
  | [] => []
  | (key, error) :: rest =>
    (if seen.contains key then [error] else []) ++ repeatedBehind (key :: seen) rest

theorem repeatedBehind_append (seen : List FuncKey) (first second : List Entry) :
    repeatedBehind seen (first ++ second) =
      repeatedBehind seen first
        ++ repeatedBehind ((first.map Prod.fst).reverse ++ seen) second := by
  induction first generalizing seen with
  | nil => rfl
  | cons entry rest ih =>
    rw [List.cons_append, repeatedBehind, repeatedBehind, ih, List.append_assoc, List.map_cons,
      List.reverse_cons, List.append_assoc]
    rfl

/-- Going through declarations finds those whose keys were seen or stand in front of them. -/
theorem repeatedBehind_eq (seen : List FuncKey) (entries : List Entry) :
    repeatedBehind seen entries = entries.zipIdx.filterMap fun (entry, place) =>
      if (seen ++ (entries.take place).map Prod.fst).contains entry.1 then some entry.2
      else none := by
  induction entries generalizing seen with
  | nil => rfl
  | cons entry rest ih =>
    obtain ⟨key, error⟩ := entry
    rw [repeatedBehind, ih, List.zipIdx_cons, List.filterMap_cons, zero_add,
      List.zipIdx_succ, List.filterMap_map]
    -- Behind the first declaration, its key is one of those seen instead of one in front.
    have later : (fun (entry, place) => if (key :: seen ++ (rest.take place).map Prod.fst).contains
          entry.1 then some entry.2 else none : Entry × Nat → Option Diagnostic) =
        (fun (entry, place) => if (seen ++ (((key, error) :: rest).take place).map Prod.fst).contains
          entry.1 then some entry.2 else none) ∘ fun (entry, place) => (entry, place + 1) := by
      funext ⟨other, place⟩
      simp [or_left_comm]
    rw [later]
    by_cases held : key ∈ seen <;> simp [held]

/-- Each declaration either brings a key that was not seen before or is found. -/
theorem length_repeatedBehind (seen : List FuncKey) (entries : List Entry) :
    (repeatedBehind seen entries).length +
        ((entries.map Prod.fst).toFinset \ seen.toFinset).card = entries.length := by
  induction entries generalizing seen with
  | nil => simp [repeatedBehind]
  | cons entry rest ih =>
    obtain ⟨key, error⟩ := entry
    have later := ih (key :: seen)
    rw [List.toFinset_cons] at later
    rw [repeatedBehind, List.length_append, List.length_cons, List.map_cons, List.toFinset_cons]
    by_cases held : key ∈ seen
    · -- The key is none of the new ones, and the declaration is found.
      have member : key ∈ seen.toFinset := List.mem_toFinset.mpr held
      rw [Finset.insert_eq_of_mem member] at later
      rw [Finset.insert_sdiff_of_mem _ member]
      simp only [List.contains_iff_mem, held, if_true, List.length_singleton]
      omega
    · have fresh : key ∉ seen.toFinset := fun member => held (List.mem_toFinset.mp member)
      have parts : insert key (rest.map Prod.fst).toFinset \ seen.toFinset =
          insert key ((rest.map Prod.fst).toFinset \ insert key seen.toFinset) := by
        ext other
        by_cases same : other = key <;> simp [same, fresh]
      rw [parts, Finset.card_insert_of_notMem (by simp)]
      simp only [List.contains_iff_mem, held, if_false, List.length_nil]
      omega

end Behind

section Counted

variable (entries : List Entry)

theorem repeatedBehind_nil : repeatedBehind [] entries = repeatedIn entries := by
  rw [repeatedBehind_eq]
  rfl

/-- As many are repeated as there are more declarations than keys. -/
theorem length_repeatedIn :
    (repeatedIn entries).length + (entries.map Prod.fst).toFinset.card = entries.length := by
  rw [← repeatedBehind_nil, ← length_repeatedBehind [] entries, List.toFinset_nil,
    Finset.sdiff_empty]

/-- None is repeated exactly if the keys are all distinct. -/
theorem repeatedIn_eq_nil_iff : repeatedIn entries = [] ↔ (entries.map Prod.fst).Nodup := by
  have count := length_repeatedIn entries
  have distinct : (entries.map Prod.fst).toFinset.card = (entries.map Prod.fst).length ↔
      (entries.map Prod.fst).Nodup := Multiset.toFinset_card_eq_card_iff_nodup
  rw [List.length_map] at distinct
  rw [← distinct, ← List.length_eq_zero_iff]
  omega

end Counted

/-- A step that reports some declarations again, whatever was found before. -/
def Repeats {α : Type} (step : Resolving α) (found : List Diagnostic) : Prop :=
  ∀ before, (step.run before).2.errors.filter Diagnostic.isRedeclaration =
    before.errors.filter Diagnostic.isRedeclaration ++ found

section Repeats

variable {α β : Type} {step : Resolving α} {next : α → Resolving β} {found others : List Diagnostic}
  {good : α → Prop}

theorem Repeats.pure (value : α) : Repeats (Pure.pure value) [] :=
  fun _ => (List.append_nil _).symm

/-- A report is found if it is that of a declaration made again. -/
theorem Repeats.report (scope : FileScope) (offset : Nat) (error : TypeError) :
    Repeats (reportError scope offset error)
      ([scope.diagnostic offset error].filter Diagnostic.isRedeclaration) :=
  fun _ => List.filter_append ..

/-- What steps report in turn is what each of them reports. -/
theorem Repeats.bind (first : Repeats step found) (gives : Gives step good)
    (second : ∀ value, good value → Repeats (next value) others) :
    Repeats (step >>= next) (found ++ others) := by
  intro before
  rw [← List.append_assoc, ← first before]
  exact second _ (gives before) (step.run before).2

theorem Repeats.andThen (first : Repeats step found)
    (second : ∀ value, Repeats (next value) others) :
    Repeats (step >>= next) (found ++ others) :=
  first.bind (.trivial step) fun value _ => second value

/-- Turning a result into another reports nothing more. -/
theorem Repeats.map (first : Repeats step found) (f : α → β) :
    Repeats (step >>= fun value => Pure.pure (f value)) found := by
  have both := first.andThen fun value => Repeats.pure (f value)
  rwa [List.append_nil] at both

/-- That no declaration is reported again carries over from single steps to steps in turn. -/
theorem repeats_isStepwise : IsStepwise fun {α : Type} (step : Resolving α) => Repeats step [] where
  pure := Repeats.pure
  report scope offset error here := by
    have report := Repeats.report scope offset error
    have other : (scope.diagnostic offset error).isRedeclaration = false := by
      cases error <;> first | rfl | cases here
    rwa [List.filter_cons, other] at report
  bind := Repeats.andThen

theorem repeats_loops : LoopsHold fun {α : Type} (step : Resolving α) => Repeats step [] :=
  fun scope offset name => Repeats.report scope offset (.recursiveAlias name)

end Repeats

section Resolved

variable {package : PackageRef} {decls : TypeDecls} {shapes : List (String × Shape)}

/-- Asking for the target of an alias reports no declaration again. -/
theorem repeats_aliasTargetWithin (depth : Nat) {name : String} {decl : TypeDecl}
    (found : decls.lookup name = some decl) :
    Repeats (aliasTargetWithin package decls shapes depth name) [] := by
  -- On the depth: an alias inside the right-hand side has one less.
  induction depth generalizing name decl with
  | zero => exact .pure _
  | succ depth ih =>
    intro before
    cases held : before.aliases.lookup name with
    | some known =>
      rw [aliasTargetWithin_known held, List.append_nil]
    | none =>
      have targets : (aliasTable package decls shapes depth decl).TargetsHold
          fun {α : Type} (step : Resolving α) => Repeats step [] := fun _ _ found _ => ih found
      rw [aliasTargetWithin_new held found]
      exact decl.spec.type.resolve_stepwise repeats_isStepwise
        (targets.names repeats_isStepwise repeats_loops)
        { before with aliases := insertKeyed name none before.aliases }

theorem repeats_targets (scope : FileScope) (params : List String) :
    (nameTable package decls shapes scope params).TargetsHold
      fun {α : Type} (step : Resolving α) => Repeats step [] :=
  fun _ _ found _ => repeats_aliasTargetWithin _ found

theorem repeats_names (scope : FileScope) (params : List String) :
    (nameTable package decls shapes scope params).NamesHold
      fun {α : Type} (step : Resolving α) => Repeats step [] :=
  (repeats_targets scope params).names repeats_isStepwise repeats_loops

/-- Resolving declarations reports none of them again. -/
theorem repeats_resolveDefinitions {entries : TypeDecls} (declared : AreDeclared decls entries) :
    Repeats (resolveDefinitions package decls entries) [] :=
  resolveDefinitions_stepwise repeats_isStepwise repeats_targets repeats_names entries declared

variable {table : TypeTable} {scope : FileScope}

/-- A receiver is resolved together with its base as written, or not at all. -/
theorem gives_resolveReceiver (table : TypeTable) (scope : FileScope) (params : List ParamExpr) :
    Gives (resolveReceiver table scope params) fun result =>
      result.map Prod.snd = acceptedBase? table.decls.declares params := by
  unfold resolveReceiver acceptedBase?
  cases params.find? fun param => !param.variadic with
  | none => exact .pure rfl
  | some param =>
    simp only [Option.bind_eq_bind, Option.bind_some]
    cases param.type.receiverBase? with
    | none => exact (Gives.trivial _).bind fun _ _ => .pure rfl
    | some found =>
      obtain ⟨base, start, typeParams⟩ := found
      dsimp only [Option.bind_some]
      -- On whether the package declares the base.
      by_cases foreign : (table.decls.lookup base).isNone = true
      · have other : table.decls.declares base = false := by
          simpa [TypeDecls.declares] using foreign
        rw [if_pos foreign, other]
        exact (Gives.trivial _).bind fun _ _ => .pure rfl
      · have own : table.decls.declares base = true := by
          simpa [TypeDecls.declares, Option.isSome_iff_ne_none] using foreign
        rw [if_neg foreign, own]
        exact (Gives.trivial _).bind fun _ _ => .pure rfl

/-- A function under a key is reported if the key is taken, and goes by it from then on. -/
theorem resolveUnder_repeats (taken : FuncKey → Bool) (decl : FuncDecl) (key : FuncKey)
    (receiver : Option Var) (typeParams : List String) :
    Repeats (resolveUnder table taken scope decl key receiver typeParams)
        (if taken key then [scope.diagnostic decl.nameStart key.error] else []) ∧
      Gives (resolveUnder table taken scope decl key receiver typeParams) fun found =>
        found.map Prod.fst = some key := by
  have function : Repeats (do
      let function ← resolveFunction table scope decl receiver typeParams
      return some (key, function)) [] :=
    (resolveFunction_stepwise repeats_isStepwise (repeats_names scope) decl receiver
      typeParams).map _
  have named : Gives (do
      let function ← resolveFunction table scope decl receiver typeParams
      return some (key, function)) fun found => found.map Prod.fst = some key :=
    (Gives.trivial _).bind fun _ _ => .pure rfl
  have error : [scope.diagnostic decl.nameStart key.error].filter Diagnostic.isRedeclaration =
      [scope.diagnostic decl.nameStart key.error] := by
    obtain ⟨_ | base, name⟩ := key <;> rfl
  unfold resolveUnder
  split
  · have report := Repeats.report scope decl.nameStart key.error
    rw [error] at report
    exact ⟨report.andThen fun _ => function, (Gives.trivial _).bind fun _ _ => named⟩
  · exact ⟨function, named⟩

/-- The error for a declaration whose key, if it has one, is taken. -/
def takenError (taken : FuncKey → Bool) (scope : FileScope) (decl : FuncDecl) :
    Option FuncKey → List Diagnostic
  | none => []
  | some key => if taken key then [scope.diagnostic decl.nameStart key.error] else []

/-- A declaration is reported if its key is taken, and goes by it from then on. -/
theorem resolveOne_repeats (table : TypeTable) (taken : FuncKey → Bool) (scope : FileScope)
    (decl : FuncDecl) :
    Repeats (resolveOne table taken scope decl)
        (takenError taken scope decl (decl.key? table.decls.declares)) ∧
      Gives (resolveOne table taken scope decl) fun found =>
        found.map Prod.fst = decl.key? table.decls.declares := by
  unfold resolveOne FuncDecl.key?
  cases decl.receiver with
  | none =>
    exact resolveUnder_repeats taken decl _ none decl.typeParams
  | some params =>
    have quiet : Repeats (resolveReceiver table scope params) [] :=
      resolveReceiver_stepwise repeats_isStepwise (repeats_names scope) params
    have gives := gives_resolveReceiver table scope params
    dsimp only
    cases accepted : acceptedBase? table.decls.declares params with
    | none =>
      rw [accepted] at gives
      refine ⟨quiet.bind gives fun result refused => ?_, gives.bind fun result refused => ?_⟩ <;>
        rw [Option.map_eq_none_iff.mp refused]
      · exact .pure none
      · exact .pure rfl
    | some base =>
      rw [accepted] at gives
      refine ⟨quiet.bind gives fun result known => ?_, gives.bind fun result known => ?_⟩ <;>
        obtain ⟨⟨receiver, other⟩, rfl, rfl⟩ := Option.map_eq_some_iff.mp known
      · exact (resolveUnder_repeats taken decl _ _ _).1
      · exact (resolveUnder_repeats taken decl _ _ _).2

end Resolved

/-- The keys that were seen are those of earlier functions, and the names of declared types. -/
def SeesAll (decls : TypeDecls) (earlier seen : List FuncKey) : Prop :=
  ∀ key : FuncKey, key.isShared = false →
    (key ∈ seen ↔ key ∈ earlier ∨ key.1.isNone = true ∧ decls.declares key.2 = true)

section Seen

variable {decls : TypeDecls} {earlier seen : List FuncKey} {key : FuncKey}

/-- A key is taken if it was seen, unless any number of functions may share it. -/
theorem SeesAll.contains_eq (sees : SeesAll decls earlier seen) (own : key.isShared = false) :
    seen.contains key = key.isTaken decls earlier := by
  rw [Bool.eq_iff_iff, List.contains_iff_mem, sees key own]
  simp [FuncKey.isTaken, own]

theorem SeesAll.cons (sees : SeesAll decls earlier seen) (key : FuncKey) :
    SeesAll decls (key :: earlier) (key :: seen) := by
  intro other own
  rw [List.mem_cons, List.mem_cons, sees other own, or_assoc]

/-- A key that is shared need not be seen. -/
theorem SeesAll.cons_shared (sees : SeesAll decls earlier seen) (shared : key.isShared = true) :
    SeesAll decls (key :: earlier) seen := by
  intro other own
  have differs : other ≠ key := by
    rintro rfl
    rw [shared] at own
    cases own
  rw [List.mem_cons, sees other own, or_iff_right differs]

/-- Resolving functions reports those whose keys were seen. -/
theorem resolveFunctions_repeats (known : List (String × String)) (table : TypeTable) :
    ∀ (entries : List (SourceFile × FuncDecl)) (earlier seen : List FuncKey),
      SeesAll table.decls earlier seen →
      Repeats (resolveFunctions table earlier
          (entries.map fun entry => (FileScope.ofFile known entry.1, entry.2)))
        (repeatedBehind seen
          (entries.filterMap fun entry => keyedFunc? table.decls.declares entry.1 entry.2))
  | [], _, _, _ => .pure []
  | (file, decl) :: rest, earlier, seen, sees => by
    -- On the declarations: whether the key of the first one is taken, the rest finds it seen.
    have later := resolveFunctions_repeats known table rest
    obtain ⟨reports, gives⟩ := resolveOne_repeats table (FuncKey.isTaken table.decls earlier)
      (FileScope.ofFile known file) decl
    rw [List.map_cons, resolveFunctions_cons, List.filterMap_cons, keyedFunc?]
    cases named : decl.key? table.decls.declares with
    | none =>
      rw [named] at reports gives
      refine reports.bind gives fun result none => ?_
      rw [Option.map_eq_none_iff.mp none]
      exact later _ _ sees
    | some key =>
      rw [named] at reports gives
      cases own : key.isShared with
      | true =>
        -- A shared key is never taken, and the declaration is none of those that count.
        have free : FuncKey.isTaken table.decls earlier key = false := by
          simp [FuncKey.isTaken, own]
        rw [takenError, free, if_neg Bool.false_ne_true] at reports
        simp only [Option.filter_some, own]
        refine reports.bind gives fun result same => ?_
        obtain ⟨⟨key, function⟩, rfl, rfl⟩ := Option.map_eq_some_iff.mp same
        exact (later _ _ (sees.cons_shared own)).map _
      | false =>
        rw [takenError, ofFile_diagnostic, ← sees.contains_eq own] at reports
        simp only [Option.filter_some, own]
        refine reports.bind gives fun result same => ?_
        obtain ⟨⟨key, function⟩, rfl, rfl⟩ := Option.map_eq_some_iff.mp same
        exact (later _ _ (sees.cons key)).map _

/-- Adding types reports those whose names were seen. -/
theorem addTypes_repeats {known : List (String × String)} {decls : TypeDecls × List Diagnostic}
    {seen : List FuncKey} (types : List (SourceFile × TypeSpec))
    (sees : ∀ name, (none, name) ∈ seen ↔ decls.1.declares name = true) :
    (addTypes known decls types).2 =
      decls.2 ++ repeatedBehind seen ((types.filter isNamed).map typeEntry) := by
  induction types generalizing decls seen with
  | nil => exact (List.append_nil _).symm
  | cons type rest ih =>
    rw [addTypes, List.foldl_cons, ← addTypes, TypeDecls.add]
    -- A blank type is dropped; any other is reported if it is declared, and seen from then on.
    by_cases blank : type.2.name = "_"
    · rw [List.filter_cons_of_neg (by simp [isNamed, blank]), if_pos (by simp [blank])]
      exact ih sees
    · rw [List.filter_cons_of_pos (by simp [isNamed, blank]), if_neg (by simp [blank]),
        List.map_cons, typeEntry, repeatedBehind]
      have place : (FileScope.ofFile known type.1).diagnostic type.2.start
          (.redeclared type.2.name) = (typeEntry type).2 :=
        ofFile_diagnostic known type.1 _ _
      by_cases held : (decls.1.lookup type.2.name).isSome = true
      · have member : (none, type.2.name) ∈ seen := (sees type.2.name).mpr held
        rw [if_pos held, if_pos (List.contains_iff_mem.mpr member), ← List.append_assoc, place]
        refine ih fun name => ?_
        rw [List.mem_cons, sees, or_iff_right_of_imp]
        rintro ⟨⟩
        exact held
      · have fresh : (none, type.2.name) ∉ seen := fun member => held ((sees _).mp member)
        rw [if_neg held, if_neg (by simpa using fresh)]
        refine ih fun name => ?_
        rw [List.mem_cons, sees, declares_insertKeyed, Bool.or_eq_true, beq_iff_eq, Prod.mk.injEq]
        simp

end Seen

section Packages

variable (known : List (String × String)) (files : List SourceFile)

/-- Collecting types reports those whose names come up again. -/
theorem collect_repeats :
    (TypeDecls.collect (scopedFiles known files)).2.filter Diagnostic.isRedeclaration =
      repeatedBehind [] (typeEntries files) := by
  have again : ∀ error ∈ (addTypes known ([], []) (declaredTypes files)).2,
      error.isRedeclaration = true := isRedeclaration_addTypes _ (by simp)
  rw [collect_eq, List.filter_eq_self.mpr again]
  exact addTypes_repeats (declaredTypes files) (by simp [TypeDecls.declares])

/-- The names of declared types are those that are seen before any function. -/
theorem seesAll_typeEntries :
    SeesAll (TypeDecls.collect (scopedFiles known files)).1 []
      (((typeEntries files).map Prod.fst).reverse ++ []) := by
  rintro ⟨base, name⟩ _
  rw [List.append_nil, List.mem_reverse, collect_eq, declares_addTypes]
  simp only [typeEntries, typeEntry, List.map_map, List.mem_map, List.mem_filter, isNamed,
    Function.comp_apply, Prod.mk.injEq, TypeDecls.declares, List.lookup_nil, Option.isSome_none,
    Bool.false_or, List.any_eq_true, Bool.and_eq_true, beq_iff_eq, List.not_mem_nil, false_or,
    Option.isNone_iff_eq_none]
  constructor
  · rintro ⟨type, ⟨member, named⟩, rfl, rfl⟩
    exact ⟨rfl, type, member, named, rfl⟩
  · rintro ⟨rfl, type, member, named, rfl⟩
    exact ⟨type, ⟨member, named⟩, rfl, rfl⟩

/-- The functions of a package with their files are those resolved in it. -/
theorem declaredFuncs_eq : declaredFuncs known files =
    (files.flatMap fun file => file.funcDecls.map fun decl => (file, decl)).map fun entry =>
      (FileScope.ofFile known entry.1, entry.2) := by
  simp only [declaredFuncs, List.map_flatMap, List.map_map]
  rfl

theorem funcEntries_eq : funcEntries files =
    (files.flatMap fun file => file.funcDecls.map fun decl => (file, decl)).filterMap fun entry =>
      keyedFunc? (declaresType files) entry.1 entry.2 := by
  simp only [funcEntries, List.filterMap_flatMap, List.filterMap_map]
  rfl

/-- Each declaration whose key an earlier one has is reported once, in the order of declarations,
and no other is. So the reports are as many as there are more declarations than keys, and there are
none exactly if the keys are all distinct. -/
theorem redeclarations_eq_repeatedIn (metadata : Metadata) (files : List SourceFile) :
    let reports := (Package.ofFiles metadata files).errors.filter Diagnostic.isRedeclaration
    let keys := (entriesOf files).map Prod.fst
    reports = repeatedIn (entriesOf files) ∧
      reports.length + keys.toFinset.card = keys.length ∧
      (reports = [] ↔ keys.Nodup) := by
  have exact : (Package.ofFiles metadata files).errors.filter Diagnostic.isRedeclaration =
      repeatedIn (entriesOf files) := by
    have ordered := inKeyOrder_collect metadata.deps files
    have types := collect_repeats metadata.deps files
    have seen := seesAll_typeEntries metadata.deps files
    have declares := declares_collect metadata.deps files
    rw [ofFiles_eq, ← repeatedBehind_nil, entriesOf, repeatedBehind_append, ← types]
    generalize TypeDecls.collect (scopedFiles metadata.deps files) = collected at *
    obtain ⟨decls, repeats⟩ := collected
    -- Resolving the types reports nothing again, so what is left are the functions.
    have quiet : Repeats (resolveDefinitions metadata.ref decls decls) [] :=
      repeats_resolveDefinitions (areDeclared_of_inKeyOrder ordered)
    have resolved : Repeats (resolveAll metadata.ref decls (shapeTable metadata.path)
        (declaredFuncs metadata.deps files))
        (repeatedBehind (((typeEntries files).map Prod.fst).reverse ++ []) (funcEntries files)) := by
      refine quiet.andThen fun definitions => ?_
      rw [declaredFuncs_eq, funcEntries_eq, ← declares]
      exact resolveFunctions_repeats metadata.deps
        ⟨metadata.ref, decls, shapeTable metadata.path definitions⟩ _ [] _ seen
    exact resolved ⟨[], repeats⟩
  have count := length_repeatedIn (entriesOf files)
  have none := repeatedIn_eq_nil_iff (entriesOf files)
  rw [← exact] at count none
  exact ⟨exact, by rwa [List.length_map], none⟩

example : (Package.ofFiles metadataOfTwo [
      .ofText ⟨"/ws/p/a.go"⟩ "package p\n\nfunc T() \x7b\x7d\n\nfunc (t T) M() \x7b\x7d\n",
      .ofText ⟨"/ws/p/b.go"⟩ "package p\n\ntype T int\n\nfunc (t *T) M() \x7b\x7d\n"]).errors.map
        Diagnostic.text =
    ["/ws/p/a.go:3:6: T redeclared in this block", "/ws/p/b.go:5:13: method T.M already declared"] := by
  decide +kernel

end Packages

end Scaffold.Go
