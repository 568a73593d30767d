import Scaffold.Proofs.Go.Aliases
import Scaffold.Proofs.Go.Receiver

/-! What resolving the functions of a package finds, receivers and their type parameters included. -/

namespace Scaffold.Go

/-- The type of a receiver with its type arguments, if it has a base that the package declares. -/
def acceptedReceiver? (isDeclared : String → Bool) (params : List ParamExpr) :
    Option (TypeExpr × List String) := do
  let param ← params.find? fun param => !param.variadic
  let (base, _, typeParams) ← param.type.receiverBase?
  if isDeclared base then some (param.type, typeParams) else none

/-- The names that a function uses, each with the type parameters in scope there; a method without
an accepted receiver is not looked into. -/
def FuncDecl.uses (isDeclared isDefined : String → Bool) (decl : FuncDecl) :
    List (List String × NameUse) :=
  match decl.receiver with
  | none => decl.signature.uses.map fun use => (decl.typeParams, use)
  | some params =>
    match acceptedReceiver? isDeclared params with
    | none => []
    | some (type, typeParams) =>
      (type.uses.map fun use => (typeParams, use)) ++
        decl.signature.uses.map fun use => (type.boundParams isDefined, use)

section Functions

variable {table : TypeTable} {scope : FileScope}

/-- The errors for the unknown ones among names used where some type parameters are in scope. -/
def unknownAmong (decls : TypeDecls) (scope : FileScope) (uses : List (List String × NameUse)) :
    List Diagnostic :=
  uses.flatMap fun (params, use) => unknownIn decls scope params [use]

theorem unknownAmong_append (decls : TypeDecls) (scope : FileScope)
    (first second : List (List String × NameUse)) :
    unknownAmong decls scope (first ++ second) =
      unknownAmong decls scope first ++ unknownAmong decls scope second :=
  List.flatMap_append

/-- Names in one scope are names with that scope each. -/
theorem unknownIn_eq (decls : TypeDecls) (scope : FileScope) (params : List String)
    (uses : List NameUse) :
    unknownIn decls scope params uses =
      unknownAmong decls scope (uses.map fun use => (params, use)) := by
  induction uses with
  | nil => rfl
  | cons use rest ih =>
    rw [List.map_cons, unknownAmong, List.flatMap_cons, ← unknownAmong, ← ih]
    simp only [unknownIn, ← List.map_append, ← List.filter_append, List.singleton_append]

/-- Of the type parameters in scope, only the names count. -/
theorem unknownIn_congr {decls : TypeDecls} {first second : List String}
    (same : ∀ name, name ∈ first ↔ name ∈ second) (uses : List NameUse) :
    unknownIn decls scope first uses = unknownIn decls scope second uses := by
  -- The parameters are only asked whether they contain a name.
  have alike : NameUse.isUnknown decls scope first = NameUse.isUnknown decls scope second := by
    funext use
    cases use with
    | plain name start =>
      have held : first.contains name = second.contains name := by
        rw [Bool.eq_iff_iff, List.contains_iff_mem, List.contains_iff_mem]
        exact same name
      rw [NameUse.isUnknown, NameUse.isUnknown, held]
    | package name start => rfl
  rw [unknownIn, unknownIn, alike]

theorem TypeTable.names_isSteady (table : TypeTable) (scope : FileScope) (params : List String) :
    (table.names scope params).IsSteady :=
  nameTable_isSteady scope params

/-- What makes a receiver an accepted one. -/
theorem acceptedReceiver?_eq_some {isDeclared : String → Bool} {params : List ParamExpr}
    {type : TypeExpr} {typeParams : List String} :
    acceptedReceiver? isDeclared params = some (type, typeParams) ↔
      ∃ param base start, params.find? (fun param => !param.variadic) = some param ∧
        param.type.receiverBase? = some (base, start, typeParams) ∧ isDeclared base = true ∧
        param.type = type := by
  simp only [acceptedReceiver?, Option.bind_eq_bind, Option.bind_eq_some_iff,
    Option.ite_none_right_eq_some, Option.some.injEq, Prod.mk.injEq, Prod.exists]
  constructor
  · rintro ⟨param, first, base, start, _, reads, declared, same, rfl⟩
    exact ⟨param, base, start, first, reads, declared, same⟩
  · rintro ⟨param, base, start, first, reads, declared, same⟩
    exact ⟨param, first, base, start, typeParams, reads, declared, same, rfl⟩

/-- A receiver that is not accepted is reported, but nothing in it is looked up. -/
theorem resolveReceiver_refused (scope : FileScope) {params : List ParamExpr}
    (refused : acceptedReceiver? table.decls.declares params = none) :
    Finds table.decls (resolveReceiver table scope params) [] ∧
      Gives (resolveReceiver table scope params) fun result => result = none := by
  unfold resolveReceiver
  cases first : params.find? fun param => !param.variadic with
  | none => exact ⟨.pure _ _, .pure rfl⟩
  | some param =>
    cases reads : param.type.receiverBase? with
    | none =>
      simp only [reads]
      exact ⟨(Finds.report table.decls scope param.start .invalidReceiver).map _,
        (Gives.trivial _).bind fun _ _ => .pure rfl⟩
    | some found =>
      obtain ⟨base, start, typeParams⟩ := found
      -- A declared base would have made the receiver an accepted one.
      have foreign : (table.decls.lookup base).isNone = true := by
        by_contra known
        have declared : table.decls.declares base = true := by
          simpa [TypeDecls.declares, Option.isSome_iff_ne_none] using known
        have accepted := acceptedReceiver?_eq_some.mpr
          ⟨param, base, start, first, reads, declared, rfl⟩
        rw [refused] at accepted
        cases accepted
      simp only [reads, if_pos foreign]
      exact ⟨(Finds.report table.decls scope start (.foreignReceiver base)).map _,
        (Gives.trivial _).bind fun _ _ => .pure rfl⟩

/-- An accepted receiver is looked into, and brings the type parameters into scope that it binds. -/
theorem resolveReceiver_accepted (scope : FileScope) {params : List ParamExpr} {type : TypeExpr}
    {typeParams : List String}
    (accepted : acceptedReceiver? table.decls.declares params = some (type, typeParams)) :
    Finds table.decls (resolveReceiver table scope params)
        (unknownIn table.decls scope typeParams type.uses) ∧
      Gives (resolveReceiver table scope params) fun result => ∃ receiver base,
        result = some (receiver, base) ∧ ∀ name,
          name ∈ receiver.type.receiverParams ↔ name ∈ type.boundParams table.decls.defines := by
  obtain ⟨param, base, start, first, reads, declared, rfl⟩ := acceptedReceiver?_eq_some.mp accepted
  have known : ¬ (table.decls.lookup base).isNone = true := by
    simpa [TypeDecls.declares, Option.isSome_iff_ne_none] using declared
  unfold resolveReceiver
  simp only [first, reads, if_neg known]
  refine ⟨(param.type.resolve_finds (table.names_isSteady scope typeParams)).map _, ?_⟩
  have bound : Gives (param.type.resolve (table.names scope typeParams)) fun resolved =>
      ∀ name, name ∈ resolved.receiverParams ↔
        name ∈ param.type.boundParams table.decls.defines :=
    receiverParams_resolve reads rfl declared
  exact bound.bind fun type same => .pure ⟨_, _, rfl, same⟩

/-- The errors for the unknown names that a function uses. -/
def unknownOf (decls : TypeDecls) (scope : FileScope) (decl : FuncDecl) : List Diagnostic :=
  unknownAmong decls scope (decl.uses decls.declares decls.defines)

/-- Resolving a function finds the unknown names in its signature. -/
theorem resolveFunction_finds (decl : FuncDecl) (receiver : Option Var)
    (typeParams : List String) :
    Finds table.decls (resolveFunction table scope decl receiver typeParams)
      (unknownIn table.decls scope typeParams decl.signature.uses) := by
  unfold resolveFunction
  exact (decl.signature.resolve_finds (table.names_isSteady scope typeParams)).map _

/-- A function declared again is reported and resolved all the same. -/
theorem Finds.warned {α : Type} {decls : TypeDecls} {step : Resolving α} {found : List Diagnostic}
    (finds : Finds decls step found) (again : Bool) (scope : FileScope) (offset : Nat)
    {error : TypeError} (other : [scope.diagnostic offset error].filter Diagnostic.isUndefined = []) :
    Finds decls (if again = true then (do reportError scope offset error; step) else step)
      found := by
  cases again with
  | false => exact finds
  | true =>
    have reported := Finds.report decls scope offset error
    rw [other] at reported
    exact reported.andThen fun _ => finds

/-- Resolving functions finds the unknown names in each of them. -/
theorem resolveFunctions_finds (table : TypeTable) : ∀ (entries : List (FileScope × FuncDecl))
    (earlier : List (Option String × String)),
    Finds table.decls (resolveFunctions table earlier entries)
      (entries.flatMap fun entry => unknownOf table.decls entry.1 entry.2)
  | [], earlier => by
    rw [resolveFunctions]
    exact .pure _ _
  | (scope, decl) :: rest, earlier => by
    have later := resolveFunctions_finds table rest
    rw [resolveFunctions, List.flatMap_cons, unknownOf, FuncDecl.uses]
    cases decl.receiver with
    | none =>
      dsimp only
      rw [← unknownIn_eq]
      refine Finds.warned ?_ _ scope decl.nameStart rfl
      exact (resolveFunction_finds decl none decl.typeParams).andThen fun function =>
        (later _).map _
    | some params =>
      dsimp only
      cases accepted : acceptedReceiver? table.decls.declares params with
      | none =>
        obtain ⟨finds, gives⟩ := resolveReceiver_refused scope accepted
        refine finds.bind gives fun result refused => ?_
        rw [refused]
        exact later earlier
      | some found =>
        obtain ⟨type, typeParams⟩ := found
        obtain ⟨finds, gives⟩ := resolveReceiver_accepted scope accepted
        -- First the receiver is looked into, then the signature in the scope that it opens.
        rw [unknownAmong_append, ← unknownIn_eq, ← unknownIn_eq, List.append_assoc]
        refine finds.bind gives fun result given => ?_
        obtain ⟨receiver, base, rfl, same⟩ := given
        rw [← unknownIn_congr same]
        refine Finds.warned ?_ _ scope decl.nameStart rfl
        exact (resolveFunction_finds decl (some receiver) receiver.type.receiverParams).andThen
          fun function => (later _).map _

end Functions

section Settled

variable {decls : TypeDecls}

/-- In key order, a list of declarations has each of its own entries. -/
theorem areDeclared_of_inKeyOrder (ordered : InKeyOrder decls) : AreDeclared decls decls :=
  fun _ member => lookup_of_mem ordered member

/-- When a step has met every declared alias, it has found what each of their declarations owes. -/
theorem Finds.settled {α : Type} {step : Resolving α} {found : List Diagnostic}
    (finds : Finds decls step found) (ordered : InKeyOrder decls)
    (meets : ∀ entry ∈ decls, entry.2.spec.isAlias = true → Meets step entry.1)
    (errors : List Diagnostic) :
    (((step.run ⟨[], errors⟩).2.errors.filter Diagnostic.isUndefined)).Perm
      (errors.filter Diagnostic.isUndefined ++ (found ++
        (decls.filter fun entry => entry.2.spec.isAlias).flatMap
          fun entry => owedBy decls entry.1)) := by
  obtain ⟨met, later⟩ := finds ⟨[], errors⟩
  -- The aliases met are the declared ones: no other can be met, and each of them was.
  have aliases : met.Perm ((decls.filter fun entry => entry.2.spec.isAlias).map Prod.fst) := by
    have distinct : (decls.map Prod.fst).Nodup :=
      List.pairwise_map.mpr (ordered.imp fun smaller => ne_of_lt smaller)
    refine (List.perm_ext_iff_of_nodup later.nodup
      (distinct.sublist (List.filter_sublist.map _))).mpr fun name => ⟨fun member => ?_, ?_⟩
    · obtain ⟨decl, declared, second⟩ := later.declared name member
      exact List.mem_map.mpr
        ⟨(name, decl), List.mem_filter.mpr ⟨mem_of_lookup declared, second⟩, rfl⟩
    · intro member
      obtain ⟨entry, listed, rfl⟩ := List.mem_map.mp member
      obtain ⟨among, second⟩ := List.mem_filter.mp listed
      exact ((later.known entry.1).mp (meets entry among second _)).resolve_right (by simp)
  refine later.errors.trans (List.Perm.append_left _ (List.Perm.append_left _ ?_))
  have owed := aliases.flatMap_right (owedBy decls)
  rwa [List.flatMap_map] at owed

/-- All declarations of a package resolved, and its functions after them. -/
def resolveAll (package : PackageRef) (decls : TypeDecls)
    (shapes : List (String × ResolvedType) → List (String × Shape))
    (entries : List (FileScope × FuncDecl)) : Resolving (List Function) := do
  let definitions ← resolveDefinitions package decls decls
  resolveFunctions ⟨package, decls, shapes definitions⟩ [] entries

/-- Resolving a package finds what each declaration owes, and the unknown names in functions. -/
theorem resolveAll_found (package : PackageRef) (ordered : InKeyOrder decls)
    (shapes : List (String × ResolvedType) → List (String × Shape))
    (entries : List (FileScope × FuncDecl)) (errors : List Diagnostic) :
    (((resolveAll package decls shapes entries).run ⟨[], errors⟩).2.errors.filter
        Diagnostic.isUndefined).Perm
      (errors.filter Diagnostic.isUndefined ++
        (decls.flatMap (fun entry => owedBy decls entry.1) ++
          entries.flatMap fun entry => unknownOf decls entry.1 entry.2)) := by
  have declared := areDeclared_of_inKeyOrder ordered
  have functions : ∀ definitions, Finds decls
      (resolveFunctions ⟨package, decls, shapes definitions⟩ [] entries)
      (entries.flatMap fun entry => unknownOf decls entry.1 entry.2) :=
    fun definitions => resolveFunctions_finds ⟨package, decls, shapes definitions⟩ entries []
  have finds := (resolveDefinitions_finds package decls declared).andThen functions
  have meets := fun entry member second =>
    (resolveDefinitions_meets package decls declared entry member second).andThen functions
  refine (finds.settled ordered meets errors).trans (List.Perm.append_left _ ?_)
  -- Definitions and aliases together are all declarations.
  have parts := (List.filter_append_perm (fun entry : String × TypeDecl => entry.2.spec.isAlias)
    decls).flatMap_right fun entry => owedBy decls entry.1
  rw [List.flatMap_append] at parts
  refine (List.perm_append_comm.trans ?_).trans (parts.append_right _)
  rw [List.append_assoc]

end Settled

end Scaffold.Go
