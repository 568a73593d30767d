import Scaffold.Proofs.Go.Findings

/-! The type parameters that a receiver binds, read off as it is written. -/

namespace Scaffold.Go

/-- The type behind any parentheses. -/
def TypeExpr.bare : TypeExpr → TypeExpr
  | .paren inner => inner.bare
  | type => type

/-- The plain names among the arguments of a defined type, unless one of them hides the type. -/
def TypeExpr.argNames (isDefined : String → Bool) : TypeExpr → List String
  | .generic (.name base _) args =>
    let names := args.filterMap TypeExpr.plainName?
    if isDefined base && !names.contains base then names else []
  | _ => []

/-- The type parameters that a receiver binds; one pointer may stand in front of its base. -/
def TypeExpr.boundParams (isDefined : String → Bool) (type : TypeExpr) : List String :=
  match type.bare with
  | .pointer elem => elem.bare.argNames isDefined
  | other => other.argNames isDefined

/-- The type parameters among some types. -/
def paramNames (types : List ResolvedType) : List String :=
  types.filterMap fun
    | .param name => some name
    | _ => none

namespace ResolvedType

/-- The type parameters among the arguments of a defined type. -/
def argParams : ResolvedType → List String
  | .named found => paramNames found.args
  | _ => []

/-- Whether a type is a defined one. -/
def isNamed : ResolvedType → Bool
  | .named _ => true
  | _ => false

/-- What a name that is no type parameter can stand for: a type that takes no other along. -/
def StandsAlone : ResolvedType → Prop
  | .named type => type.args = []
  | .aliased _ _ _ | .basic _ | .error | .any | .invalid _ => True
  | _ => False

/-- A receiver brings along the arguments of its type, behind the one pointer it may be. -/
theorem receiverParams_eq (type : ResolvedType) :
    type.receiverParams = type.withoutPointer.argParams := by
  rw [receiverParams]
  cases type.withoutPointer <;> rfl

/-- A type that stands alone is no pointer, with arguments or without. -/
theorem StandsAlone.withoutPointer {type : ResolvedType} (alone : type.StandsAlone)
    (args : List ResolvedType) : (type.withArgs args).withoutPointer = type.withArgs args := by
  cases type <;> first | rfl | cases alone

/-- Only a defined type takes arguments. -/
theorem argParams_withArgs (type : ResolvedType) (args : List ResolvedType) :
    (type.withArgs args).argParams = if type.isNamed then paramNames args else [] := by
  cases type <;> rfl

end ResolvedType

section Results

variable {table : NameTable}

/-- A declared name stands for a defined type exactly if it is no alias. -/
theorem declared_gives (name : String) (start : Nat) (decl : TypeDecl) :
    Gives (table.declared name start decl) fun type =>
      type.StandsAlone ∧ type.isNamed = !decl.spec.isAlias := by
  unfold NameTable.declared
  split
  case isTrue second =>
    -- Whether the target is known or still in progress, the result is no defined type.
    refine (Gives.trivial _).bind fun target _ => ?_
    rw [second]
    split
    · exact .pure ⟨trivial, rfl⟩
    · exact (Gives.trivial _).bind fun _ _ => .pure ⟨trivial, rfl⟩
  case isFalse first =>
    rw [eq_false_of_ne_true first]
    exact .pure ⟨rfl, rfl⟩

/-- A predeclared type stands alone. -/
theorem standsAlone_of_predeclared {name : String} {type : ResolvedType}
    (found : predeclared? name = some type) : type.StandsAlone := by
  unfold predeclared? at found
  split at found
  · cases found; trivial
  · split at found
    · cases found; trivial
    · split at found <;> cases found
      trivial

/-- A name that is no type parameter stands for a type of its own. -/
theorem resolveName_alone {name : String} (fresh : name ∉ table.params) (start : Nat) :
    Gives (table.resolveName name start) ResolvedType.StandsAlone := by
  -- The first place that a name is looked for is out of the question.
  unfold NameTable.resolveName
  rw [if_neg fun held => fresh (List.contains_iff_mem.mp held)]
  split
  case h_1 decl found => exact fun before => (declared_gives name start decl before).1
  case h_2 missing =>
    split
    case h_1 type found => exact .pure (standsAlone_of_predeclared found)
    case h_2 other =>
      unfold NameTable.undeclared
      split
      · exact (Gives.trivial _).bind fun _ _ => .pure trivial
      · exact .pure rfl
      · exact .pure trivial

/-- A name behind that of a package stands for a type of its own. -/
theorem resolveQualified_alone (package : String) (start : Nat) (name : String) :
    Gives (table.resolveQualified package start name) ResolvedType.StandsAlone := by
  unfold NameTable.resolveQualified
  split
  · exact .pure rfl
  · exact (Gives.trivial _).bind fun _ _ => .pure trivial

/-- A type that is a type parameter only if that parameter is in scope. -/
def NameTable.HasInScope (table : NameTable) (type : ResolvedType) : Prop :=
  ∀ name, type = .param name → name ∈ table.params

/-- A type that stands alone is no type parameter at all. -/
theorem ResolvedType.StandsAlone.inScope {type : ResolvedType} (alone : type.StandsAlone) :
    table.HasInScope type := by
  rintro name rfl
  cases alone

/-- Arguments turn nothing into a type parameter. -/
theorem NameTable.HasInScope.withArgs {type : ResolvedType} (visible : table.HasInScope type)
    (args : List ResolvedType) : table.HasInScope (type.withArgs args) := by
  intro name same
  cases type <;> first | exact visible name same | cases same

/-- Only a name in scope can turn out to be a type parameter. -/
theorem TypeExpr.resolve_inScope : ∀ expr : TypeExpr, Gives (expr.resolve table) table.HasInScope
  | .name text start => by
    rw [TypeExpr.resolve]
    by_cases held : text ∈ table.params
    · rw [NameTable.resolveName, if_pos (List.contains_iff_mem.mpr held)]
      refine .pure ?_
      rintro other ⟨⟩
      exact held
    · exact fun before => (resolveName_alone held start before).inScope
  | .qualified package start selected => by
    rw [TypeExpr.resolve]
    exact fun before => (resolveQualified_alone package start selected before).inScope
  | .generic base args => by
    rw [TypeExpr.resolve]
    refine base.resolve_inScope.bind fun resolved visible => ?_
    exact (Gives.trivial _).bind fun args _ => .pure (visible.withArgs args)
  | .paren inner => by
    rw [TypeExpr.resolve]
    exact inner.resolve_inScope
  | .pointer elem | .slice elem | .array _ elem | .chan _ elem | .func _ | .struct _
  | .interface _ => by
    rw [TypeExpr.resolve]
    refine (Gives.trivial _).bind fun _ _ => .pure ?_
    rintro other ⟨⟩
  | .map key value => by
    rw [TypeExpr.resolve]
    refine (Gives.trivial _).bind fun _ _ => (Gives.trivial _).bind fun _ _ => .pure ?_
    rintro other ⟨⟩
  | .comment text start => by
    rw [TypeExpr.resolve]
    refine (Gives.trivial _).bind fun _ _ => .pure ?_
    rintro other ⟨⟩
  | .approximate text => by
    rw [TypeExpr.resolve]
    refine .pure ?_
    rintro other ⟨⟩

theorem mem_paramNames {name : String} {types : List ResolvedType} :
    name ∈ paramNames types ↔ ResolvedType.param name ∈ types := by
  rw [paramNames, List.mem_filterMap]
  constructor
  · rintro ⟨type, member, same⟩
    split at same <;> cases same
    exact member
  · exact fun member => ⟨_, member, rfl⟩

/-- The type parameters among arguments are in scope, and plain names in scope are among them. -/
theorem resolveTypes_paramNames (args : List TypeExpr) :
    Gives (resolveTypes table args) fun types => (∀ name ∈ paramNames types, name ∈ table.params) ∧
      ∀ name ∈ args.filterMap TypeExpr.plainName?, name ∈ table.params →
        name ∈ paramNames types := by
  induction args with
  | nil =>
    rw [resolveTypes]
    exact .pure ⟨by simp [paramNames], by simp⟩
  | cons first rest ih =>
    rw [resolveTypes]
    -- The first argument is a type parameter if it is a plain name in scope, and only of those.
    have given : Gives (first.resolve table) fun type => table.HasInScope type ∧
        ∀ name, first.plainName? = some name → name ∈ table.params → type = .param name := by
      intro before
      refine ⟨first.resolve_inScope before, fun name plain held => ?_⟩
      cases first <;> cases plain
      rw [TypeExpr.resolve, NameTable.resolveName, if_pos (List.contains_iff_mem.mpr held)]
      rfl
    refine given.bind fun type own => ih.bind fun types others => ?_
    obtain ⟨visible, same⟩ := own
    obtain ⟨inside, outside⟩ := others
    refine .pure ⟨?_, ?_⟩
    · intro name member
      rcases List.mem_cons.mp (mem_paramNames.mp member) with here | later
      · exact visible name here.symm
      · exact inside name (mem_paramNames.mpr later)
    · intro name member held
      rw [mem_paramNames, List.mem_cons]
      obtain ⟨arg, among, plain⟩ := List.mem_filterMap.mp member
      rcases List.mem_cons.mp among with rfl | later
      · exact .inl (same name plain held).symm
      · have listed := List.mem_filterMap.mpr ⟨arg, later, plain⟩
        exact .inr (mem_paramNames.mp (outside name listed held))

/-- Parentheses do not count. -/
theorem TypeExpr.resolve_bare : ∀ type : TypeExpr, type.bare.resolve table = type.resolve table
  | .paren inner => by
    rw [TypeExpr.bare, TypeExpr.resolve]
    exact inner.resolve_bare
  | .name _ _ | .qualified _ _ _ | .generic _ _ | .pointer _ | .slice _ | .array _ _ | .chan _ _
  | .func _ | .struct _ | .interface _ | .map _ _ | .comment _ _ | .approximate _ => rfl

/-- The base of a receiver is looked for behind parentheses. -/
theorem TypeExpr.receiverBase?_bare : ∀ type : TypeExpr, type.bare.receiverBase? = type.receiverBase?
  | .paren inner => inner.receiverBase?_bare
  | .name _ _ | .qualified _ _ _ | .generic _ _ | .pointer _ | .slice _ | .array _ _ | .chan _ _
  | .func _ | .struct _ | .interface _ | .map _ _ | .comment _ _ | .approximate _ => rfl

/-- A result that takes along some type parameters and is no pointer. -/
def ResolvedType.Carries (type : ResolvedType) (names : List String) : Prop :=
  type.withoutPointer = type ∧ ∀ name, name ∈ type.argParams ↔ name ∈ names

/-- A type with its arguments takes them along if it is a defined type. -/
theorem ResolvedType.StandsAlone.carries {type : ResolvedType} (alone : type.StandsAlone)
    {args : List ResolvedType} {names : List String}
    (given : type.isNamed = true → ∀ name, name ∈ paramNames args ↔ name ∈ names)
    (none : type.isNamed = false → names = []) : (type.withArgs args).Carries names := by
  refine ⟨alone.withoutPointer args, fun name => ?_⟩
  rw [ResolvedType.argParams_withArgs]
  cases named : type.isNamed with
  | true => exact given named name
  | false => simp [none named]

/-- A type that stands alone takes nothing along. -/
theorem ResolvedType.StandsAlone.carries_nil {type : ResolvedType} (alone : type.StandsAlone) :
    type.Carries [] := by
  cases type with
  | named found =>
    refine ⟨rfl, fun name => ?_⟩
    rw [ResolvedType.argParams, (alone : found.args = [])]
    rfl
  | _ => first | exact ⟨rfl, fun _ => .rfl⟩ | cases alone

/-- A base with arguments takes along what a receiver binds. -/
theorem carries_generic {base : String} {start : Nat} {args : List TypeExpr}
    (names : table.params = args.filterMap TypeExpr.plainName?)
    (declared : (table.decls.lookup base).isSome = true) :
    Gives ((TypeExpr.generic (.name base start) args).resolve table) fun resolved =>
      resolved.Carries ((TypeExpr.generic (.name base start) args).argNames
        table.decls.defines) := by
  obtain ⟨decl, found⟩ := Option.isSome_iff_exists.mp declared
  rw [TypeExpr.resolve, TypeExpr.resolve, TypeExpr.argNames, ← names]
  cases held : table.params.contains base with
  | true =>
    -- The base is taken for the parameter that hides it.
    rw [NameTable.resolveName, if_pos held, pure_bind]
    refine (Gives.trivial _).bind fun types _ => .pure ?_
    refine ⟨rfl, fun name => ?_⟩
    simp [ResolvedType.argParams, ResolvedType.withArgs]
  | false =>
    rw [NameTable.resolveName, held, if_neg Bool.false_ne_true]
    simp only [found]
    -- The base is the declared type, which takes the arguments along unless it is an alias.
    refine (declared_gives base start decl).bind fun type own => ?_
    obtain ⟨alone, named⟩ := own
    refine (resolveTypes_paramNames args).bind fun types given => .pure ?_
    obtain ⟨inside, outside⟩ := given
    have defines : table.decls.defines base = type.isNamed := by
      rw [TypeDecls.defines, found, named]
      rfl
    refine alone.carries (fun isNamed name => ?_) fun other => ?_
    · rw [defines, isNamed]
      exact ⟨inside name, fun member => outside name (names ▸ member) member⟩
    · rw [defines, other]
      rfl

/-- No parentheses are left around a type without them. -/
theorem TypeExpr.bare_ne_paren : ∀ type inner : TypeExpr, type.bare ≠ .paren inner
  | .paren behind, inner => behind.bare_ne_paren inner
  | .name _ _, _ | .qualified _ _ _, _ | .generic _ _, _ | .pointer _, _ | .slice _, _
  | .array _ _, _ | .chan _ _, _ | .func _, _ | .struct _, _ | .interface _, _ | .map _ _, _
  | .comment _ _, _ | .approximate _, _ => by rintro ⟨⟩

/-- The base of a receiver, looked up where its own arguments are in scope, takes along what the
receiver binds. -/
theorem carries_base {type : TypeExpr} {base : String} {start : Nat} {params : List String}
    (reads : type.receiverBase? = some (base, start, params)) (names : table.params = params)
    (declared : (table.decls.lookup base).isSome = true)
    (direct : ∀ elem, type.bare ≠ .pointer elem) :
    Gives (type.resolve table) fun resolved =>
      resolved.Carries (type.bare.argNames table.decls.defines) := by
  rw [← type.resolve_bare]
  rw [← type.receiverBase?_bare] at reads
  have outside := type.bare_ne_paren
  generalize type.bare = shown at *
  cases shown with
  | name text place =>
    -- A plain base has no arguments, so no type parameter is in scope that could hide it.
    have none : table.params = [] := by cases reads; exact names
    rw [TypeExpr.resolve]
    exact fun before => (resolveName_alone (by simp [none]) place before).carries_nil
  | generic target args =>
    cases target with
    | name text place =>
      cases reads
      exact carries_generic names declared
    | qualified package place selected =>
      -- The arguments of a type of another package are no type parameters of the method.
      have none : table.params = [] := by cases reads; exact names
      rw [TypeExpr.resolve, TypeExpr.resolve]
      refine (resolveQualified_alone package place selected).bind fun type alone => ?_
      refine (resolveTypes_paramNames args).bind fun types given => .pure ?_
      have closed : (type.withArgs types).Carries [] :=
        alone.carries (fun _ name => ⟨fun member => none ▸ given.1 name member, by simp⟩)
          fun _ => rfl
      exact closed
    | _ => cases reads
  | pointer elem => exact absurd rfl (direct elem)
  | paren inner => exact absurd rfl (outside inner)
  | _ => cases reads

/-- A resolved receiver brings exactly the type parameters into scope that it binds. -/
theorem receiverParams_resolve {type : TypeExpr} {base : String} {start : Nat}
    {params : List String} (reads : type.receiverBase? = some (base, start, params))
    (names : table.params = params) (declared : (table.decls.lookup base).isSome = true) :
    Gives (type.resolve table) fun resolved => ∀ name,
      name ∈ resolved.receiverParams ↔ name ∈ type.boundParams table.decls.defines := by
  simp only [ResolvedType.receiverParams_eq, TypeExpr.boundParams]
  split
  case h_1 elem pointed =>
    have inner : elem.receiverBase? = some (base, start, params) := by
      rw [← reads, ← type.receiverBase?_bare, pointed]
      rfl
    rw [← type.resolve_bare, pointed, TypeExpr.resolve]
    by_cases direct : ∀ further, elem.bare ≠ .pointer further
    · refine (carries_base inner names declared direct).bind fun resolved carried => ?_
      exact .pure carried.2
    -- Of two pointers the inner one is kept, and a pointer takes nothing along.
    · obtain ⟨further, again⟩ := not_forall_not.mp direct
      rw [← elem.resolve_bare, again, TypeExpr.resolve, bind_assoc]
      exact (Gives.trivial _).bind fun resolved _ => .pure fun name => .rfl
  case h_2 direct =>
    intro before name
    obtain ⟨shown, carried⟩ := carries_base reads names declared direct before
    rw [shown]
    exact carried name

end Results

end Scaffold.Go
