import Scaffold.Proofs.Go.Receiver
import Scaffold.Proofs.Go.Settled

/-! The defined types that types and functions mention, and where a property of them comes from. -/

namespace Scaffold.Go

mutual

/-- The defined types that a type mentions as it is written, each without its arguments. An alias is
written by its name. -/
def ResolvedType.mentions : ResolvedType → List NamedType
  | .named type => type.mentions
  | .pointer elem | .slice elem | .array _ elem | .chan _ elem => elem.mentions
  | .map key value => key.mentions ++ value.mentions
  | .func signature => signature.mentions
  | .struct fields => mentionsOfFields fields
  | .interface elems => mentionsOfElems elems
  | .basic _ | .error | .any | .param _ | .aliased _ _ _ | .invalid _ => []

/-- A defined type and those that its arguments mention. -/
def NamedType.mentions : NamedType → List NamedType
  | ⟨package, name, args, shape⟩ => ⟨package, name, [], shape⟩ :: mentionsOfTypes args

/-- The defined types that some types mention. -/
def mentionsOfTypes : List ResolvedType → List NamedType
  | [] => []
  | type :: rest => type.mentions ++ mentionsOfTypes rest

/-- The defined types that parameters and results mention. -/
def Signature.mentions : Signature → List NamedType
  | ⟨params, results, _⟩ => mentionsOfVars params ++ mentionsOfVars results

/-- The defined types that variables mention. -/
def mentionsOfVars : List Var → List NamedType
  | [] => []
  | ⟨_, type⟩ :: rest => type.mentions ++ mentionsOfVars rest

/-- The defined types that fields mention. -/
def mentionsOfFields : List StructField → List NamedType
  | [] => []
  | ⟨_, type⟩ :: rest => type.mentions ++ mentionsOfFields rest

/-- The defined types that the elements of an interface mention. -/
def mentionsOfElems : List InterfaceElem → List NamedType
  | [] => []
  | .method _ signature :: rest => signature.mentions ++ mentionsOfElems rest
  | .embedded type :: rest => type.mentions ++ mentionsOfElems rest

end

/-- The defined types that the receiver, the parameters and the results of a function mention. -/
def Function.mentions (function : Function) : List NamedType :=
  (function.receiver.toList.flatMap fun receiver => receiver.type.mentions) ++
    function.signature.mentions

section All

variable {good : NamedType → Prop}

/-- What holds of all that each of some variables mentions holds of all that they mention. -/
theorem forall_mentionsOfVars {vars : List Var} : (∀ held ∈ mentionsOfVars vars, good held) ↔
    ∀ var ∈ vars, ∀ held ∈ var.type.mentions, good held := by
  induction vars with
  | nil => simp [mentionsOfVars]
  | cons var rest ih =>
    obtain ⟨name, type⟩ := var
    rw [mentionsOfVars, List.forall_mem_append, ih, List.forall_mem_cons]

theorem forall_mentionsOfFields {fields : List StructField} :
    (∀ held ∈ mentionsOfFields fields, good held) ↔
      ∀ field ∈ fields, ∀ held ∈ field.type.mentions, good held := by
  induction fields with
  | nil => simp [mentionsOfFields]
  | cons field rest ih =>
    obtain ⟨name, type⟩ := field
    rw [mentionsOfFields, List.forall_mem_append, ih, List.forall_mem_cons]

/-- With other arguments, a type mentions what it did and what these do. -/
theorem forall_mentions_withArgs {type : ResolvedType} {args : List ResolvedType}
    (own : ∀ held ∈ type.mentions, good held) (others : ∀ held ∈ mentionsOfTypes args, good held) :
    ∀ held ∈ (type.withArgs args).mentions, good held := by
  cases type with
  | named found =>
    obtain ⟨package, name, old, shape⟩ := found
    rw [ResolvedType.mentions, NamedType.mentions] at own
    exact List.forall_mem_cons.mpr ⟨(List.forall_mem_cons.mp own).1, others⟩
  | _ => exact own

end All

/-- A property of all defined types that the names of a table stand for. -/
structure NameTable.NamesMention (table : NameTable) (good : NamedType → Prop) : Prop where
  plain : ∀ name start, Gives (table.resolveName name start) fun type =>
    ∀ held ∈ type.mentions, good held
  qualified : ∀ package start name, Gives (table.resolveQualified package start name) fun type =>
    ∀ held ∈ type.mentions, good held

section Resolve

variable {table : NameTable} {good : NamedType → Prop}

mutual

/-- What holds of the defined types that names stand for holds of all that a type mentions. -/
theorem TypeExpr.resolve_mentions (names : table.NamesMention good) : ∀ expr : TypeExpr,
    Gives (expr.resolve table) fun type => ∀ held ∈ type.mentions, good held
  | .name text start => by
    rw [TypeExpr.resolve]
    exact names.plain text start
  | .qualified package start selected => by
    rw [TypeExpr.resolve]
    exact names.qualified package start selected
  | .generic base args => by
    rw [TypeExpr.resolve]
    refine (base.resolve_mentions names).bind fun type own => ?_
    exact (resolveTypes_mentions names args).bind fun types others =>
      .pure (forall_mentions_withArgs own others)
  | .pointer elem | .slice elem | .array _ elem | .chan _ elem => by
    rw [TypeExpr.resolve]
    exact (elem.resolve_mentions names).bind fun type inner => .pure inner
  | .map key value => by
    rw [TypeExpr.resolve]
    refine (key.resolve_mentions names).bind fun first keyed => ?_
    exact (value.resolve_mentions names).bind fun second valued =>
      .pure (List.forall_mem_append.mpr ⟨keyed, valued⟩)
  | .func signature => by
    rw [TypeExpr.resolve]
    exact (signature.resolve_mentions names).bind fun resolved inner => .pure inner
  | .struct fields => by
    rw [TypeExpr.resolve]
    exact (resolveFields_mentions names fields).bind fun resolved inner => .pure inner
  | .interface elems => by
    rw [TypeExpr.resolve]
    exact (resolveElems_mentions names elems).bind fun resolved inner => .pure inner
  | .paren inner => by
    rw [TypeExpr.resolve]
    exact inner.resolve_mentions names
  | .comment text start => by
    rw [TypeExpr.resolve]
    exact (Gives.trivial _).bind fun _ _ => .pure (by simp [ResolvedType.mentions])
  | .approximate text => by
    rw [TypeExpr.resolve]
    exact .pure (by simp [ResolvedType.mentions])

theorem resolveTypes_mentions (names : table.NamesMention good) : ∀ types : List TypeExpr,
    Gives (resolveTypes table types) fun resolved => ∀ held ∈ mentionsOfTypes resolved, good held
  | [] => by
    rw [resolveTypes]
    exact .pure (by simp [mentionsOfTypes])
  | first :: rest => by
    rw [resolveTypes]
    refine (first.resolve_mentions names).bind fun type own => ?_
    exact (resolveTypes_mentions names rest).bind fun types others =>
      .pure (List.forall_mem_append.mpr ⟨own, others⟩)

theorem SignatureExpr.resolve_mentions (names : table.NamesMention good) :
    ∀ signature : SignatureExpr,
      Gives (signature.resolve table) fun resolved => ∀ held ∈ resolved.mentions, good held
  | .mk params results => by
    rw [SignatureExpr.resolve]
    refine (resolveParams_mentions names params).bind fun taken first => ?_
    exact (resolveParams_mentions names results).bind fun given second =>
      .pure (List.forall_mem_append.mpr ⟨first, second⟩)

theorem resolveParams_mentions (names : table.NamesMention good) : ∀ params : List ParamExpr,
    Gives (resolveParams table params) fun vars => ∀ held ∈ mentionsOfVars vars, good held
  | [] => by
    rw [resolveParams]
    exact .pure (by simp [mentionsOfVars])
  | .mk shared type start variadic :: rest => by
    rw [resolveParams]
    refine (type.resolve_mentions names).bind fun resolved own => ?_
    refine (resolveParams_mentions names rest).bind fun vars others => .pure ?_
    refine forall_mentionsOfVars.mpr (List.forall_mem_append.mpr
      ⟨?_, forall_mentionsOfVars.mp others⟩)
    -- However many names share the type, and spread or not, it mentions the same.
    split
    · exact List.forall_mem_singleton.mpr own
    · split
      · exact List.forall_mem_singleton.mpr own
      · exact List.forall_mem_map.mpr fun _ _ => own

theorem resolveFields_mentions (names : table.NamesMention good) : ∀ fields : List FieldExpr,
    Gives (resolveFields table fields) fun resolved =>
      ∀ held ∈ mentionsOfFields resolved, good held
  | [] => by
    rw [resolveFields]
    exact .pure (by simp [mentionsOfFields])
  | .named shared type _ :: rest => by
    rw [resolveFields]
    refine (type.resolve_mentions names).bind fun resolved own => ?_
    refine (resolveFields_mentions names rest).bind fun fields others => .pure ?_
    exact forall_mentionsOfFields.mpr (List.forall_mem_append.mpr
      ⟨List.forall_mem_map.mpr fun _ _ => own, forall_mentionsOfFields.mp others⟩)
  | .embedded pointer type _ :: rest => by
    rw [resolveFields]
    refine (type.resolve_mentions names).bind fun resolved own => ?_
    refine (resolveFields_mentions names rest).bind fun fields others => .pure ?_
    refine List.forall_mem_append.mpr ⟨?_, others⟩
    cases pointer <;> exact own

theorem resolveElems_mentions (names : table.NamesMention good) : ∀ elems : List ElemExpr,
    Gives (resolveElems table elems) fun resolved => ∀ held ∈ mentionsOfElems resolved, good held
  | [] => by
    rw [resolveElems]
    exact .pure (by simp [mentionsOfElems])
  | .method _ signature :: rest => by
    rw [resolveElems]
    refine (signature.resolve_mentions names).bind fun resolved own => ?_
    exact (resolveElems_mentions names rest).bind fun elems others =>
      .pure (List.forall_mem_append.mpr ⟨own, others⟩)
  | .embedded type :: rest => by
    rw [resolveElems]
    refine (type.resolve_mentions names).bind fun resolved own => ?_
    exact (resolveElems_mentions names rest).bind fun elems others =>
      .pure (List.forall_mem_append.mpr ⟨own, others⟩)
  | .union types :: rest => by
    rw [resolveElems]
    exact resolveElems_mentions names rest

end

end Resolve

section Functions

variable {table : TypeTable} {good : NamedType → Prop} {scope : FileScope} {decl : FuncDecl}

theorem resolveReceiver_mentions
    (names : ∀ params, (table.names scope params).NamesMention good) (params : List ParamExpr) :
    Gives (resolveReceiver table scope params) fun result =>
      ∀ found ∈ result, ∀ held ∈ found.1.type.mentions, good held := by
  unfold resolveReceiver
  split
  · exact .pure (by simp)
  · split
    · exact (Gives.trivial _).bind fun _ _ => .pure (by simp)
    · split
      · exact (Gives.trivial _).bind fun _ _ => .pure (by simp)
      · refine (TypeExpr.resolve_mentions (names _) _).bind fun type own => .pure ?_
        rintro found ⟨⟩
        exact own

theorem resolveUnder_mentions (names : ∀ params, (table.names scope params).NamesMention good)
    (taken : FuncKey → Bool) (key : FuncKey) {receiver : Option Var}
    (held : ∀ var ∈ receiver, ∀ held ∈ var.type.mentions, good held) (typeParams : List String) :
    Gives (resolveUnder table taken scope decl key receiver typeParams)
      fun found => ∀ named ∈ found, ∀ held ∈ named.2.mentions, good held := by
  have function : Gives (resolveFunction table scope decl receiver typeParams)
      fun function => ∀ held ∈ function.mentions, good held := by
    refine (decl.signature.resolve_mentions (names typeParams)).bind fun signature own => .pure ?_
    refine List.forall_mem_append.mpr ⟨?_, own⟩
    rw [List.forall_mem_flatMap]
    exact fun var member => held var (Option.mem_toList.mp member)
  have named : Gives
      (do let function ← resolveFunction table scope decl receiver typeParams
          return some (key, function))
      fun found => ∀ named ∈ found, ∀ held ∈ named.2.mentions, good held := by
    refine function.bind fun function given => .pure ?_
    rintro named ⟨⟩
    exact given
  unfold resolveUnder
  split
  · exact (Gives.trivial _).bind fun _ _ => named
  · exact named

/-- What holds of the defined types that names stand for holds of all that a function mentions. -/
theorem resolveOne_mentions (names : ∀ params, (table.names scope params).NamesMention good)
    (taken : FuncKey → Bool) :
    Gives (resolveOne table taken scope decl)
      fun found => ∀ named ∈ found, ∀ held ∈ named.2.mentions, good held := by
  unfold resolveOne
  split
  · exact resolveUnder_mentions names taken _ (by simp) _
  · refine (resolveReceiver_mentions names _).bind fun accepted held => ?_
    cases accepted with
    | none => exact .pure (by simp)
    | some found =>
      refine resolveUnder_mentions names taken _ ?_ _
      rintro var ⟨⟩
      exact held found rfl

end Functions

end Scaffold.Go
