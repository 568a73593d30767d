import Scaffold.Proofs.Go.Functions
import Scaffold.Proofs.Go.Steps

/-! Once every alias is met, each function is resolved by itself, whatever stands around it. -/

namespace Scaffold.Go

/-- A step that adds errors whatever was found before, and leaves a table of aliases as it is. -/
def Settled (aliases : List (String × Option ResolvedType)) {α : Type} (step : Resolving α) :
    Prop :=
  ∃ value added, ∀ errors, step.run ⟨aliases, errors⟩ = (value, ⟨aliases, errors ++ added⟩)

/-- What a step gives and the errors it adds, where some aliases are known. -/
def outcome (aliases : List (String × Option ResolvedType)) {α : Type} (step : Resolving α) :
    α × List Diagnostic :=
  let (value, findings) := step.run ⟨aliases, []⟩
  (value, findings.errors)

variable {aliases : List (String × Option ResolvedType)}

/-- A settled step has its outcome whatever was found before. -/
theorem Settled.run {α : Type} {step : Resolving α} (settled : Settled aliases step)
    (errors : List Diagnostic) :
    step.run ⟨aliases, errors⟩ =
      ((outcome aliases step).1, ⟨aliases, errors ++ (outcome aliases step).2⟩) := by
  obtain ⟨value, added, runs⟩ := settled
  rw [outcome, runs, runs]
  rfl

/-- Steps in turn have the outcomes of each. -/
theorem Settled.outcome_bind {α β : Type} {step : Resolving α} {next : α → Resolving β}
    (first : Settled aliases step) (second : ∀ value, Settled aliases (next value)) :
    outcome aliases (step >>= next) =
      let (value, added) := outcome aliases step
      let (result, more) := outcome aliases (next value)
      (result, added ++ more) := by
  rw [outcome, StateT.run_bind, first.run, List.nil_append]
  exact congrArg (fun ran => (ran.1, ran.2.errors)) ((second _).run _)

theorem Settled.outcome_map {α β : Type} {step : Resolving α} (settled : Settled aliases step)
    (f : α → β) :
    outcome aliases (step >>= fun value => Pure.pure (f value)) =
      (f (outcome aliases step).1, (outcome aliases step).2) := by
  rw [outcome, StateT.run_bind, settled.run]
  rfl

theorem settled_report (scope : FileScope) (offset : Nat) (error : TypeError) :
    Settled aliases (reportError scope offset error) :=
  ⟨(), [scope.diagnostic offset error], fun _ => rfl⟩

theorem settled_isStepwise : IsStepwise (Settled aliases) where
  pure value := ⟨value, [], fun errors => by rw [List.append_nil]; rfl⟩
  report scope offset _ _ := settled_report scope offset _
  bind first second := by
    obtain ⟨value, added, runs⟩ := first
    obtain ⟨result, more, goes⟩ := second value
    -- The second step starts from what the first one has added, and adds the same as ever.
    refine ⟨result, added ++ more, fun errors => ?_⟩
    rw [StateT.run_bind, runs, ← List.append_assoc]
    exact goes (errors ++ added)

section Known

variable {package : PackageRef} {decls : TypeDecls} {shapes : List (String × Shape)}

/-- Every declared alias was met before. -/
def AllMet (decls : TypeDecls) (aliases : List (String × Option ResolvedType)) : Prop :=
  ∀ name decl, decls.lookup name = some decl → decl.spec.isAlias = true →
    (aliases.lookup name).isSome = true

/-- Where every alias was met, looking up names is settled: no target is looked for again. -/
theorem nameTable_settled (met : AllMet decls aliases) (scope : FileScope) (params : List String) :
    (nameTable package decls shapes scope params).NamesHold (Settled aliases) := by
  refine NameTable.TargetsHold.names (fun name decl found second => ?_) settled_isStepwise
    fun scope offset name => settled_report scope offset (.recursiveAlias name)
  obtain ⟨known, held⟩ := Option.isSome_iff_exists.mp (met name decl found second)
  -- A known alias is looked up, and nothing is added.
  refine ⟨known, [], fun errors => ?_⟩
  have findings : (Findings.mk aliases errors).aliases.lookup name = some known := held
  rw [List.append_nil]
  exact aliasTargetWithin_known findings _

/-- When all declarations are resolved, every alias was met. -/
theorem allMet_resolveDefinitions (package : PackageRef) (ordered : InKeyOrder decls)
    (before : Findings) :
    AllMet decls ((resolveDefinitions package decls decls).run before).2.aliases :=
  fun name decl found second =>
    resolveDefinitions_meets package decls (areDeclared_of_inKeyOrder ordered) (name, decl)
      (mem_of_lookup found) second before

end Known

/-- What a function goes by in its package: the base type of its receiver, if any, and its name. -/
abbrev FuncKey := Option String × String

namespace FuncKey

/-- The error for a function of a key that is taken. -/
def error : FuncKey → TypeError
  | (none, name) => .redeclared name
  | (some base, name) => .repeatedMethod base name

/-- Whether any number of functions may go by a key. -/
def isShared : FuncKey → Bool
  | (none, name) => isRepeatable name
  | (some _, _) => false

/-- Whether a function may not go by a key, since an earlier one or a type does so already. -/
def isTaken (decls : TypeDecls) (earlier : List FuncKey) (key : FuncKey) : Bool :=
  (earlier.contains key || key.1.isNone && decls.declares key.2) && !key.isShared

end FuncKey

/-- The errors for functions whose keys are taken, each with the error that it would be. -/
def repeatsAmong (decls : TypeDecls) :
    List FuncKey → List (FuncKey × Diagnostic) → List Diagnostic
  | _, [] => []
  | earlier, (key, error) :: rest =>
    (if key.isTaken decls earlier then [error] else []) ++
      repeatsAmong decls (key :: earlier) rest

/-- A function resolved under a key, and reported if the key is taken. -/
def resolveUnder (table : TypeTable) (taken : FuncKey → Bool) (scope : FileScope) (decl : FuncDecl)
    (key : FuncKey) (receiver : Option Var) (typeParams : List String) :
    Resolving (Option (FuncKey × Function)) := do
  if taken key then reportError scope decl.nameStart key.error
  let function ← resolveFunction table scope decl receiver typeParams
  return some (key, function)

/-- A method resolved behind its receiver and the base type of that, if it has an accepted one. -/
def resolveBehind (table : TypeTable) (taken : FuncKey → Bool) (scope : FileScope)
    (decl : FuncDecl) : Option (Var × String) → Resolving (Option (FuncKey × Function))
  | none => return none
  | some (receiver, base) =>
    resolveUnder table taken scope decl (some base, decl.name) (some receiver)
      receiver.type.receiverParams

/-- A function resolved under the key that it goes by; a method without an accepted receiver has
none. -/
def resolveOne (table : TypeTable) (taken : FuncKey → Bool) (scope : FileScope) (decl : FuncDecl) :
    Resolving (Option (FuncKey × Function)) :=
  match decl.receiver with
  | none => resolveUnder table taken scope decl (none, decl.name) none decl.typeParams
  | some params => resolveReceiver table scope params >>= resolveBehind table taken scope decl

section Functions

variable {table : TypeTable}

theorem resolveUnder_bind {α : Type} (taken : FuncKey → Bool) (scope : FileScope) (decl : FuncDecl)
    (key : FuncKey) (receiver : Option Var) (typeParams : List String)
    (later : Option (FuncKey × Function) → Resolving α) :
    resolveUnder table taken scope decl key receiver typeParams >>= later =
      let rest : Resolving α := do
        let function ← resolveFunction table scope decl receiver typeParams
        later (some (key, function))
      if taken key = true then (do reportError scope decl.nameStart key.error; rest) else rest := by
  unfold resolveUnder
  split <;> simp only [bind_assoc, pure_bind]

/-- Functions are resolved one by one, each key being taken from then on. -/
theorem resolveFunctions_cons (earlier : List FuncKey) (scope : FileScope) (decl : FuncDecl)
    (rest : List (FileScope × FuncDecl)) :
    resolveFunctions table earlier ((scope, decl) :: rest) = (do
      match ← resolveOne table (FuncKey.isTaken table.decls earlier) scope decl with
      | none => resolveFunctions table earlier rest
      | some (key, function) =>
        return function :: (← resolveFunctions table (key :: earlier) rest)) := by
  rw [resolveFunctions, resolveOne]
  cases decl.receiver with
  | none =>
    dsimp only
    rw [resolveUnder_bind]
    rfl
  | some params =>
    simp only [bind_assoc]
    refine bind_congr fun result => ?_
    cases result with
    | none => rfl
    | some found =>
      obtain ⟨receiver, base⟩ := found
      -- For a method, no type of the same name and no leave to repeat come into it.
      have method : FuncKey.isTaken table.decls earlier (some base, decl.name) =
          earlier.contains (some base, decl.name) := by
        simp [FuncKey.isTaken, FuncKey.isShared]
      rw [resolveBehind, resolveUnder_bind, method]
      rfl

section Stepwise

variable {holds : ∀ {α : Type}, Resolving α → Prop}

/-- What holds of looking up names, and of reports of keys, holds of resolving functions. -/
theorem resolveUnder_stepwise (stepwise : IsStepwise holds) {scope : FileScope}
    (names : ∀ params, (table.names scope params).NamesHold holds)
    (again : ∀ scope offset (key : FuncKey), holds (reportError scope offset key.error))
    (taken : FuncKey → Bool) (decl : FuncDecl) (key : FuncKey) (receiver : Option Var)
    (typeParams : List String) :
    holds (resolveUnder table taken scope decl key receiver typeParams) := by
  have named := stepwise.map (resolveFunction_stepwise stepwise names decl receiver typeParams)
    fun function => some (key, function)
  unfold resolveUnder
  split
  · exact stepwise.bind (again scope decl.nameStart key) fun _ => named
  · exact named

theorem resolveBehind_stepwise (stepwise : IsStepwise holds) {scope : FileScope}
    (names : ∀ params, (table.names scope params).NamesHold holds)
    (again : ∀ scope offset (key : FuncKey), holds (reportError scope offset key.error))
    (taken : FuncKey → Bool) (decl : FuncDecl) (accepted : Option (Var × String)) :
    holds (resolveBehind table taken scope decl accepted) := by
  cases accepted with
  | none => exact stepwise.pure none
  | some found => exact resolveUnder_stepwise stepwise names again taken decl _ _ _

theorem resolveOne_stepwise (stepwise : IsStepwise holds) {scope : FileScope}
    (names : ∀ params, (table.names scope params).NamesHold holds)
    (again : ∀ scope offset (key : FuncKey), holds (reportError scope offset key.error))
    (taken : FuncKey → Bool) (decl : FuncDecl) :
    holds (resolveOne table taken scope decl) := by
  unfold resolveOne
  split
  · exact resolveUnder_stepwise stepwise names again taken decl _ _ _
  · exact stepwise.bind (resolveReceiver_stepwise stepwise names _) fun accepted =>
      resolveBehind_stepwise stepwise names again taken decl accepted

theorem resolveFunctions_stepwise (stepwise : IsStepwise holds)
    (names : ∀ scope params, (table.names scope params).NamesHold holds)
    (again : ∀ scope offset (key : FuncKey), holds (reportError scope offset key.error)) :
    ∀ (entries : List (FileScope × FuncDecl)) (earlier : List FuncKey),
      holds (resolveFunctions table earlier entries)
  | [], _ => stepwise.pure []
  | (scope, decl) :: rest, earlier => by
    -- On the declarations: each is resolved in turn, whatever keys are taken.
    have later := resolveFunctions_stepwise stepwise names again rest
    rw [resolveFunctions_cons]
    refine stepwise.bind (resolveOne_stepwise stepwise (names scope) again _ decl) fun found => ?_
    cases found with
    | none => exact later earlier
    | some found => exact stepwise.map (later (found.1 :: earlier)) _

end Stepwise

theorem settled_again (scope : FileScope) (offset : Nat) (key : FuncKey) :
    Settled aliases (reportError scope offset key.error) :=
  settled_report scope offset key.error

/-- A function under a key is what it is by itself, and a warning in front of it adds only its
error. -/
theorem outcome_resolveUnder (met : AllMet table.decls aliases) (taken : FuncKey → Bool)
    (scope : FileScope) (decl : FuncDecl) (key : FuncKey) (receiver : Option Var)
    (typeParams : List String) :
    outcome aliases (resolveUnder table taken scope decl key receiver typeParams) =
      let (function, added) :=
        outcome aliases (resolveFunction table scope decl receiver typeParams)
      (some (key, function),
        (if taken key then [scope.diagnostic decl.nameStart key.error] else []) ++ added) := by
  have function : Settled aliases (resolveFunction table scope decl receiver typeParams) :=
    resolveFunction_stepwise settled_isStepwise (nameTable_settled met scope) decl receiver
      typeParams
  have named := settled_isStepwise.map function fun function => some (key, function)
  unfold resolveUnder
  split
  case isTrue =>
    -- The warning comes in front, and what is behind it is the same function.
    have report : Settled aliases (reportError scope decl.nameStart key.error) :=
      settled_again scope decl.nameStart key
    rw [report.outcome_bind fun _ => named, function.outcome_map]
    rfl
  case isFalse =>
    rw [function.outcome_map]
    rfl

/-- The errors for a function whose key is taken. -/
def warnings (taken : FuncKey → Bool) (scope : FileScope) (decl : FuncDecl) :
    Option (FuncKey × Function) → List Diagnostic
  | none => []
  | some (key, _) => if taken key then [scope.diagnostic decl.nameStart key.error] else []

theorem settled_resolveBehind (met : AllMet table.decls aliases) (taken : FuncKey → Bool)
    (scope : FileScope) (decl : FuncDecl) (accepted : Option (Var × String)) :
    Settled aliases (resolveBehind table taken scope decl accepted) :=
  resolveBehind_stepwise settled_isStepwise (nameTable_settled met scope) settled_again taken decl
    accepted

theorem settled_resolveOne (met : AllMet table.decls aliases) (taken : FuncKey → Bool)
    (scope : FileScope) (decl : FuncDecl) :
    Settled aliases (resolveOne table taken scope decl) :=
  resolveOne_stepwise settled_isStepwise (nameTable_settled met scope) settled_again taken decl

/-- What a declaration resolves to if its key is free. -/
def alone (table : TypeTable) (aliases : List (String × Option ResolvedType)) (scope : FileScope)
    (decl : FuncDecl) : Option (FuncKey × Function) × List Diagnostic :=
  outcome aliases (resolveOne table (fun _ => false) scope decl)

/-- Which keys are taken decides on nothing but a warning. -/
theorem outcome_resolveOne (met : AllMet table.decls aliases) (taken : FuncKey → Bool)
    (scope : FileScope) (decl : FuncDecl) :
    (outcome aliases (resolveOne table taken scope decl)).1 = (alone table aliases scope decl).1 ∧
      (outcome aliases (resolveOne table taken scope decl)).2.Perm
        (warnings taken scope decl (alone table aliases scope decl).1 ++
          (alone table aliases scope decl).2) := by
  unfold alone resolveOne
  split
  · rw [outcome_resolveUnder met, outcome_resolveUnder met]
    exact ⟨rfl, .refl _⟩
  · have receiver := resolveReceiver_stepwise settled_isStepwise (nameTable_settled met scope) ‹_›
    rw [receiver.outcome_bind (settled_resolveBehind met _ scope decl),
      receiver.outcome_bind (settled_resolveBehind met _ scope decl)]
    generalize outcome aliases (resolveReceiver table scope _) = result
    obtain ⟨_ | ⟨accepted, base⟩, added⟩ := result
    · exact ⟨rfl, .refl _⟩
    · simp only [resolveBehind, outcome_resolveUnder met, warnings]
      -- The errors of the receiver come first, whether there is a warning or not.
      exact ⟨trivial, by simpa using List.perm_append_comm_assoc _ _ _⟩

/-- The functions that declarations resolve to by themselves. -/
def functionsAlone (table : TypeTable) (aliases : List (String × Option ResolvedType))
    (entries : List (FileScope × FuncDecl)) : List Function :=
  entries.filterMap fun entry => (alone table aliases entry.1 entry.2).1.map Prod.snd

/-- The errors in declarations by themselves. -/
def errorsAlone (table : TypeTable) (aliases : List (String × Option ResolvedType))
    (entries : List (FileScope × FuncDecl)) : List Diagnostic :=
  entries.flatMap fun entry => (alone table aliases entry.1 entry.2).2

/-- The keys of declarations, each with the error that it is if the key is taken. -/
def claims (table : TypeTable) (aliases : List (String × Option ResolvedType))
    (entries : List (FileScope × FuncDecl)) : List (FuncKey × Diagnostic) :=
  entries.filterMap fun entry => (alone table aliases entry.1 entry.2).1.map fun found =>
    (found.1, entry.1.diagnostic entry.2.nameStart found.1.error)

section Permuted

variable {table : TypeTable} {entries others : List (FileScope × FuncDecl)}

theorem functionsAlone_perm (perm : entries.Perm others) :
    (functionsAlone table aliases entries).Perm (functionsAlone table aliases others) :=
  perm.filterMap _

theorem errorsAlone_perm (perm : entries.Perm others) :
    (errorsAlone table aliases entries).Perm (errorsAlone table aliases others) :=
  perm.flatMap_right _

theorem claims_perm (perm : entries.Perm others) :
    (claims table aliases entries).Perm (claims table aliases others) :=
  perm.filterMap _

end Permuted

/-- Functions are what each declaration resolves to by itself; so are the errors, but for those
that say that a key is taken. -/
theorem resolveFunctions_settled (met : AllMet table.decls aliases) :
    ∀ (entries : List (FileScope × FuncDecl)) (earlier : List FuncKey),
      Settled aliases (resolveFunctions table earlier entries) ∧
        (outcome aliases (resolveFunctions table earlier entries)).1 =
          functionsAlone table aliases entries ∧
        (outcome aliases (resolveFunctions table earlier entries)).2.Perm
          (repeatsAmong table.decls earlier (claims table aliases entries) ++
            errorsAlone table aliases entries)
  | [], earlier => ⟨settled_isStepwise.pure [], rfl, .refl _⟩
  | (scope, decl) :: rest, earlier => by
    -- On the declarations: the first one is settled, so the rest begin in the same table.
    have later := resolveFunctions_settled met rest
    have first := settled_resolveOne met (FuncKey.isTaken table.decls earlier) scope decl
    obtain ⟨same, warned⟩ :=
      outcome_resolveOne met (FuncKey.isTaken table.decls earlier) scope decl
    have settles : ∀ found : Option (FuncKey × Function), Settled aliases (match found with
        | none => resolveFunctions table earlier rest
        | some (key, function) => do
          return function :: (← resolveFunctions table (key :: earlier) rest)) := by
      intro found
      cases found with
      | none => exact (later earlier).1
      | some found => exact settled_isStepwise.map (later (found.1 :: earlier)).1 _
    rw [resolveFunctions_cons]
    refine ⟨settled_isStepwise.bind first settles, ?_⟩
    rw [first.outcome_bind settles, functionsAlone, claims, errorsAlone, List.filterMap_cons,
      List.filterMap_cons, List.flatMap_cons, ← functionsAlone, ← claims, ← errorsAlone]
    dsimp only
    rw [same]
    cases found : (alone table aliases scope decl).1 with
    | none =>
      rw [found] at warned
      obtain ⟨_, functions, errors⟩ := later earlier
      -- Nothing goes by a key here, so what is added are the errors of the receiver.
      refine ⟨functions, (warned.append errors).trans ?_⟩
      exact List.perm_append_comm_assoc _ _ _
    | some named =>
      obtain ⟨key, function⟩ := named
      rw [found, warnings] at warned
      obtain ⟨settled, functions, errors⟩ := later (key :: earlier)
      dsimp only [Option.map_some]
      rw [settled.outcome_map, functions, repeatsAmong]
      -- The warnings of all declarations are moved in front of their other errors.
      refine ⟨rfl, (warned.append errors).trans (List.perm_iff_count.mpr fun error => ?_)⟩
      simp only [List.count_append]
      omega

end Functions

end Scaffold.Go
