import Scaffold.Go.Printed
import Scaffold.Proofs.Go.FileOrder
import Scaffold.Proofs.Go.Receiver

/-! The type parameters that types mention, and the declarations that bring them into scope. -/

namespace Scaffold.Go

mutual

/-- The type parameters that a type mentions as it is written. An alias is written by its name. -/
def ResolvedType.typeParams : ResolvedType → List String
  | .param name => [name]
  | .named type => type.typeParams
  | .pointer elem | .slice elem | .array _ elem | .chan _ elem => elem.typeParams
  | .map key value => key.typeParams ++ value.typeParams
  | .func signature => signature.typeParams
  | .struct fields => typeParamsOfFields fields
  | .interface elems => typeParamsOfElems elems
  | .basic _ | .error | .any | .aliased _ _ _ | .invalid _ => []

/-- The type parameters among the arguments of a defined type. -/
def NamedType.typeParams : NamedType → List String
  | ⟨_, _, args, _⟩ => typeParamsOfTypes args

/-- The type parameters that some types mention. -/
def typeParamsOfTypes : List ResolvedType → List String
  | [] => []
  | type :: rest => type.typeParams ++ typeParamsOfTypes rest

/-- The type parameters that parameters and results mention. -/
def Signature.typeParams : Signature → List String
  | ⟨params, results, _⟩ => typeParamsOfVars params ++ typeParamsOfVars results

/-- The type parameters that variables mention. -/
def typeParamsOfVars : List Var → List String
  | [] => []
  | ⟨_, type⟩ :: rest => type.typeParams ++ typeParamsOfVars rest

/-- The type parameters that fields mention. -/
def typeParamsOfFields : List StructField → List String
  | [] => []
  | ⟨_, type⟩ :: rest => type.typeParams ++ typeParamsOfFields rest

/-- The type parameters that the elements of an interface mention. -/
def typeParamsOfElems : List InterfaceElem → List String
  | [] => []
  | .method _ signature :: rest => signature.typeParams ++ typeParamsOfElems rest
  | .embedded type :: rest => type.typeParams ++ typeParamsOfElems rest

end

section Members

variable {name : String}

theorem mem_typeParamsOfTypes {types : List ResolvedType} :
    name ∈ typeParamsOfTypes types ↔ ∃ type ∈ types, name ∈ type.typeParams := by
  induction types with
  | nil => simp [typeParamsOfTypes]
  | cons type rest ih => simp [typeParamsOfTypes, ih]

theorem mem_typeParamsOfVars {vars : List Var} :
    name ∈ typeParamsOfVars vars ↔ ∃ var ∈ vars, name ∈ var.type.typeParams := by
  induction vars with
  | nil => simp [typeParamsOfVars]
  | cons var rest ih =>
    obtain ⟨own, type⟩ := var
    simp [typeParamsOfVars, ih]

theorem mem_typeParamsOfFields {fields : List StructField} :
    name ∈ typeParamsOfFields fields ↔ ∃ field ∈ fields, name ∈ field.type.typeParams := by
  induction fields with
  | nil => simp [typeParamsOfFields]
  | cons field rest ih =>
    obtain ⟨own, type⟩ := field
    simp [typeParamsOfFields, ih]

theorem Signature.mem_typeParams {signature : Signature} : name ∈ signature.typeParams ↔
    ∃ var ∈ signature.params ++ signature.results, name ∈ var.type.typeParams := by
  obtain ⟨params, results, variadic⟩ := signature
  simp only [Signature.typeParams, List.mem_append, mem_typeParamsOfVars]
  constructor
  · rintro (⟨var, member, held⟩ | ⟨var, member, held⟩)
    · exact ⟨var, .inl member, held⟩
    · exact ⟨var, .inr member, held⟩
  · rintro ⟨var, member | member, held⟩
    · exact .inl ⟨var, member, held⟩
    · exact .inr ⟨var, member, held⟩

end Members

section Pieces

mutual

/-- A type is written with the type parameters that it mentions. -/
theorem ResolvedType.text_mem_pieces {name : String} : ∀ type : ResolvedType,
    name ∈ type.typeParams → .text name ∈ type.pieces
  | .param own, member => by
    obtain rfl := List.mem_singleton.mp member
    rw [ResolvedType.pieces]
    exact List.mem_singleton_self _
  | .named ⟨package, own, [], shape⟩, member => by cases member
  | .named ⟨package, own, first :: rest, shape⟩, member => by
    have inner := text_mem_argPieces (first :: rest) member
    simp [ResolvedType.pieces, NamedType.pieces, inner]
  | .pointer elem, member | .slice elem, member | .array _ elem, member => by
    have inner := elem.text_mem_pieces member
    simp [ResolvedType.pieces, inner]
  | .chan dir elem, member => by
    have inner := elem.text_mem_pieces member
    rw [ResolvedType.pieces, enclosed]
    split <;> simp [inner]
  | .map key value, member => by
    rcases List.mem_append.mp member with here | there
    · simp [ResolvedType.pieces, key.text_mem_pieces here]
    · simp [ResolvedType.pieces, value.text_mem_pieces there]
  | .func signature, member => by
    have inner := signature.text_mem_pieces member
    simp [ResolvedType.pieces, inner]
  | .struct fields, member => by
    have inner := text_mem_fieldPieces fields member
    simp [ResolvedType.pieces, inner]
  | .interface elems, member => by
    have inner := text_mem_elemPieces elems member
    simp [ResolvedType.pieces, inner]
  | .basic _, member | .error, member | .any, member | .aliased _ _ _, member
  | .invalid _, member => by cases member

theorem text_mem_argPieces {name : String} : ∀ types : List ResolvedType,
    name ∈ typeParamsOfTypes types → .text name ∈ argPieces types
  | [], member => by cases member
  | [type], member => by
    rcases List.mem_append.mp member with here | none
    · rw [argPieces]
      exact type.text_mem_pieces here
    · cases none
  | type :: next :: rest, member => by
    rcases List.mem_append.mp member with here | later
    · simp [argPieces, type.text_mem_pieces here]
    · simp [argPieces, text_mem_argPieces (next :: rest) later]

theorem Signature.text_mem_pieces {name : String} : ∀ signature : Signature,
    name ∈ signature.typeParams → .text name ∈ signature.pieces
  | ⟨params, results, variadic⟩, member => by
    rcases List.mem_append.mp member with taken | given
    · simp [Signature.pieces, text_mem_paramPieces variadic params taken]
    · simp [Signature.pieces, text_mem_resultPieces results given]

theorem text_mem_paramPieces {name : String} (variadic : Bool) : ∀ params : List Var,
    name ∈ typeParamsOfVars params → .text name ∈ paramPieces variadic params
  | [], member => by cases member
  | [⟨own, type⟩], member => by
    rcases List.mem_append.mp member with here | none
    · rw [paramPieces, spread]
      refine List.mem_append_right _ ?_
      split
      · -- Only the brackets of a slice are gone, and its element is still there.
        rename_i slice
        cases type with
        | slice elem => simp [ResolvedType.pieces, elem.text_mem_pieces here]
        | _ => simp [ResolvedType.isSlice] at slice
      · exact type.text_mem_pieces here
    · cases none
  | ⟨own, type⟩ :: next :: rest, member => by
    rcases List.mem_append.mp member with here | later
    · simp [paramPieces, type.text_mem_pieces here]
    · simp [paramPieces, text_mem_paramPieces variadic (next :: rest) later]

theorem text_mem_resultPieces {name : String} : ∀ results : List Var,
    name ∈ typeParamsOfVars results → .text name ∈ resultPieces results
  | [], member => by cases member
  | [⟨own, type⟩], member => by
    rcases List.mem_append.mp member with here | none
    · rw [resultPieces]
      split <;> simp [type.text_mem_pieces here]
    · cases none
  | first :: second :: rest, member => by
    simp [resultPieces, text_mem_varPieces (first :: second :: rest) member]

theorem text_mem_varPieces {name : String} : ∀ vars : List Var,
    name ∈ typeParamsOfVars vars → .text name ∈ varPieces vars
  | [], member => by cases member
  | [⟨own, type⟩], member => by
    rcases List.mem_append.mp member with here | none
    · simp [varPieces, type.text_mem_pieces here]
    · cases none
  | ⟨own, type⟩ :: next :: rest, member => by
    rcases List.mem_append.mp member with here | later
    · simp [varPieces, type.text_mem_pieces here]
    · simp [varPieces, text_mem_varPieces (next :: rest) later]

theorem text_mem_fieldPieces {name : String} : ∀ fields : List StructField,
    name ∈ typeParamsOfFields fields → .text name ∈ fieldPieces fields
  | [], member => by cases member
  | [⟨own, type⟩], member => by
    rcases List.mem_append.mp member with here | none
    · simp [fieldPieces, type.text_mem_pieces here]
    · cases none
  | ⟨own, type⟩ :: next :: rest, member => by
    rcases List.mem_append.mp member with here | later
    · simp [fieldPieces, type.text_mem_pieces here]
    · simp [fieldPieces, text_mem_fieldPieces (next :: rest) later]

theorem text_mem_elemPieces {name : String} : ∀ elems : List InterfaceElem,
    name ∈ typeParamsOfElems elems → .text name ∈ elemPieces elems
  | [], member => by cases member
  | [.method own signature], member => by
    rcases List.mem_append.mp member with here | none
    · simp [elemPieces, InterfaceElem.pieces, signature.text_mem_pieces here]
    · cases none
  | [.embedded type], member => by
    rcases List.mem_append.mp member with here | none
    · simp [elemPieces, InterfaceElem.pieces, type.text_mem_pieces here]
    · cases none
  | .method own signature :: next :: rest, member => by
    rcases List.mem_append.mp member with here | later
    · simp [elemPieces, InterfaceElem.pieces, signature.text_mem_pieces here]
    · simp [elemPieces, text_mem_elemPieces (next :: rest) later]
  | .embedded type :: next :: rest, member => by
    rcases List.mem_append.mp member with here | later
    · simp [elemPieces, InterfaceElem.pieces, type.text_mem_pieces here]
    · simp [elemPieces, text_mem_elemPieces (next :: rest) later]

end

end Pieces

section Resolve

variable {table : NameTable}

/-- What a name stands for that is no type parameter mentions none. -/
theorem ResolvedType.StandsAlone.typeParams {type : ResolvedType} (alone : type.StandsAlone) :
    type.typeParams = [] := by
  cases type with
  | named found =>
    obtain ⟨package, name, args, shape⟩ := found
    obtain rfl : args = [] := alone
    rfl
  | _ => first | rfl | cases alone

/-- A defined type mentions what its arguments do. -/
theorem typeParams_withArgs (type : ResolvedType) (args : List ResolvedType) :
    (type.withArgs args).typeParams =
      if type.isNamed then typeParamsOfTypes args else type.typeParams := by
  cases type <;> rfl

/-- A name mentions a type parameter only if it is one that is in scope. -/
theorem resolveName_typeParams (text : String) (start : Nat) :
    Gives (table.resolveName text start) fun type => type.typeParams ⊆ table.params := by
  by_cases held : text ∈ table.params
  · rw [NameTable.resolveName, if_pos (List.contains_iff_mem.mpr held)]
    exact .pure (List.cons_subset.mpr ⟨held, List.nil_subset _⟩)
  · intro before
    rw [(resolveName_alone held start before).typeParams]
    exact List.nil_subset _

mutual

/-- However deep in a type, only those type parameters are mentioned that are in scope. -/
theorem TypeExpr.resolve_typeParams : ∀ expr : TypeExpr,
    Gives (expr.resolve table) fun type => type.typeParams ⊆ table.params
  | .name text start => by
    rw [TypeExpr.resolve]
    exact resolveName_typeParams text start
  | .qualified package start name => by
    rw [TypeExpr.resolve]
    intro before
    rw [(resolveQualified_alone package start name before).typeParams]
    exact List.nil_subset _
  | .generic base args => by
    rw [TypeExpr.resolve]
    refine base.resolve_typeParams.bind fun type own => ?_
    refine (resolveTypes_typeParams args).bind fun types others => .pure ?_
    rw [typeParams_withArgs]
    split
    · exact others
    · exact own
  | .pointer elem | .slice elem | .array _ elem | .chan _ elem => by
    rw [TypeExpr.resolve]
    exact elem.resolve_typeParams.bind fun type inner => .pure inner
  | .map key value => by
    rw [TypeExpr.resolve]
    refine key.resolve_typeParams.bind fun first keyed => ?_
    exact value.resolve_typeParams.bind fun second valued =>
      .pure (List.append_subset.mpr ⟨keyed, valued⟩)
  | .func signature => by
    rw [TypeExpr.resolve]
    exact signature.resolve_typeParams.bind fun resolved inner => .pure inner
  | .struct fields => by
    rw [TypeExpr.resolve]
    exact (resolveFields_typeParams fields).bind fun resolved inner => .pure inner
  | .interface elems => by
    rw [TypeExpr.resolve]
    exact (resolveElems_typeParams elems).bind fun resolved inner => .pure inner
  | .paren inner => by
    rw [TypeExpr.resolve]
    exact inner.resolve_typeParams
  | .comment text start => by
    rw [TypeExpr.resolve]
    exact (Gives.trivial _).bind fun _ _ => .pure (List.nil_subset _)
  | .approximate text => by
    rw [TypeExpr.resolve]
    exact .pure (List.nil_subset _)

theorem resolveTypes_typeParams : ∀ types : List TypeExpr,
    Gives (resolveTypes table types) fun resolved => typeParamsOfTypes resolved ⊆ table.params
  | [] => by
    rw [resolveTypes]
    exact .pure (List.nil_subset _)
  | first :: rest => by
    rw [resolveTypes]
    refine first.resolve_typeParams.bind fun type own => ?_
    exact (resolveTypes_typeParams rest).bind fun types others =>
      .pure (List.append_subset.mpr ⟨own, others⟩)

theorem SignatureExpr.resolve_typeParams : ∀ signature : SignatureExpr,
    Gives (signature.resolve table) fun resolved => resolved.typeParams ⊆ table.params
  | .mk params results => by
    rw [SignatureExpr.resolve]
    refine (resolveParams_typeParams params).bind fun taken first => ?_
    exact (resolveParams_typeParams results).bind fun given second =>
      .pure (List.append_subset.mpr ⟨first, second⟩)

theorem resolveParams_typeParams : ∀ params : List ParamExpr,
    Gives (resolveParams table params) fun vars => typeParamsOfVars vars ⊆ table.params
  | [] => by
    rw [resolveParams]
    exact .pure (List.nil_subset _)
  | .mk names type start variadic :: rest => by
    rw [resolveParams]
    refine type.resolve_typeParams.bind fun resolved own => ?_
    refine (resolveParams_typeParams rest).bind fun vars others => .pure ?_
    intro name member
    obtain ⟨var, among, held⟩ := mem_typeParamsOfVars.mp member
    rcases List.mem_append.mp among with here | later
    · -- However many names share the type, and spread or not, it mentions the same.
      refine own ?_
      split at here
      · obtain rfl := List.mem_singleton.mp here
        exact held
      · split at here
        · obtain rfl := List.mem_singleton.mp here
          exact held
        · obtain ⟨shared, -, rfl⟩ := List.mem_map.mp here
          exact held
    · exact others (mem_typeParamsOfVars.mpr ⟨var, later, held⟩)

theorem resolveFields_typeParams : ∀ fields : List FieldExpr,
    Gives (resolveFields table fields) fun resolved => typeParamsOfFields resolved ⊆ table.params
  | [] => by
    rw [resolveFields]
    exact .pure (List.nil_subset _)
  | .named names type _ :: rest => by
    rw [resolveFields]
    refine type.resolve_typeParams.bind fun resolved own => ?_
    refine (resolveFields_typeParams rest).bind fun fields others => .pure ?_
    intro name member
    obtain ⟨field, among, held⟩ := mem_typeParamsOfFields.mp member
    rcases List.mem_append.mp among with here | later
    · obtain ⟨shared, -, rfl⟩ := List.mem_map.mp here
      exact own held
    · exact others (mem_typeParamsOfFields.mpr ⟨field, later, held⟩)
  | .embedded pointer type _ :: rest => by
    rw [resolveFields]
    refine type.resolve_typeParams.bind fun resolved own => ?_
    refine (resolveFields_typeParams rest).bind fun fields others => .pure ?_
    refine List.append_subset.mpr ⟨?_, others⟩
    cases pointer <;> exact own

theorem resolveElems_typeParams : ∀ elems : List ElemExpr,
    Gives (resolveElems table elems) fun resolved => typeParamsOfElems resolved ⊆ table.params
  | [] => by
    rw [resolveElems]
    exact .pure (List.nil_subset _)
  | .method name signature :: rest => by
    rw [resolveElems]
    refine signature.resolve_typeParams.bind fun resolved own => ?_
    exact (resolveElems_typeParams rest).bind fun elems others =>
      .pure (List.append_subset.mpr ⟨own, others⟩)
  | .embedded type :: rest => by
    rw [resolveElems]
    refine type.resolve_typeParams.bind fun resolved own => ?_
    exact (resolveElems_typeParams rest).bind fun elems others =>
      .pure (List.append_subset.mpr ⟨own, others⟩)
  | .union types :: rest => by
    rw [resolveElems]
    exact resolveElems_typeParams rest

end

end Resolve

/-- The type parameters that a declaration binds: its own, or the plain names among the arguments
in its receiver. -/
def FuncDecl.boundParams (decl : FuncDecl) : List String :=
  match decl.receiver with
  | none => decl.typeParams
  | some params =>
    let base := (params.find? fun param => !param.variadic).bind fun param =>
      param.type.receiverBase?
    (base.map fun (_, _, typeParams) => typeParams).getD []

/-- What a receiver brings into the scope of its method, its type mentions. -/
theorem ResolvedType.receiverParams_subset (type : ResolvedType) :
    type.receiverParams ⊆ type.typeParams := by
  have inner : ∀ type : ResolvedType, type.argParams ⊆ type.typeParams := by
    intro type name member
    cases type with
    | named found =>
      obtain ⟨package, own, args, shape⟩ := found
      exact mem_typeParamsOfTypes.mpr
        ⟨.param name, mem_paramNames.mp member, List.mem_singleton_self name⟩
    | _ => cases member
  rw [receiverParams_eq]
  cases type with
  | pointer elem => exact inner elem
  | _ => exact inner _

/-- A function comes from a declaration that binds all type parameters it mentions. A method knows
only those that its receiver brings along. -/
structure Function.ComesFrom (function : Function) (decl : FuncDecl) : Prop where
  name : function.name = decl.name
  start : function.start = decl.start
  signature : function.signature.typeParams ⊆ decl.boundParams
  receiver : ∀ receiver ∈ function.receiver, receiver.type.typeParams ⊆ decl.boundParams
  method : ∀ receiver ∈ function.receiver,
    function.signature.typeParams ⊆ receiver.type.receiverParams

section Functions

variable {table : TypeTable} {scope : FileScope} {decl : FuncDecl}

/-- A receiver mentions no type parameters but those that its declaration binds. -/
theorem resolveReceiver_typeParams {params : List ParamExpr}
    (written : decl.receiver = some params) :
    Gives (resolveReceiver table scope params) fun result =>
      ∀ found ∈ result, found.1.type.typeParams ⊆ decl.boundParams := by
  unfold resolveReceiver
  split
  · exact .pure (by simp)
  · rename_i param first
    split
    · exact (Gives.trivial _).bind fun _ _ => .pure (by simp)
    · rename_i base start typeParams reads
      split
      · exact (Gives.trivial _).bind fun _ _ => .pure (by simp)
      · have bound : decl.boundParams = typeParams := by
          rw [FuncDecl.boundParams, written]
          dsimp only
          rw [first, Option.bind_some, reads]
          rfl
        rw [bound]
        refine param.type.resolve_typeParams.bind fun type inner => .pure ?_
        rintro found ⟨⟩
        exact inner

/-- What a declaration is resolved to under some type parameters mentions only those. -/
theorem resolveUnder_comesFrom (taken : FuncKey → Bool) (key : FuncKey) {receiver : Option Var}
    {typeParams : List String} (bound : typeParams ⊆ decl.boundParams)
    (held : ∀ var ∈ receiver, var.type.typeParams ⊆ decl.boundParams)
    (brought : ∀ var ∈ receiver, typeParams ⊆ var.type.receiverParams) :
    Gives (resolveUnder table taken scope decl key receiver typeParams)
      fun found => ∀ named ∈ found, named.2.ComesFrom decl := by
  have function : Gives (resolveFunction table scope decl receiver typeParams)
      fun function => function.ComesFrom decl :=
    decl.signature.resolve_typeParams.bind fun signature inner => .pure
      ⟨rfl, rfl, List.Subset.trans inner bound, held,
        fun var own => List.Subset.trans inner (brought var own)⟩
  have named : Gives
      (do let function ← resolveFunction table scope decl receiver typeParams
          return some (key, function))
      fun found => ∀ named ∈ found, named.2.ComesFrom decl := by
    refine function.bind fun function given => .pure ?_
    rintro named ⟨⟩
    exact given
  unfold resolveUnder
  split
  · exact (Gives.trivial _).bind fun _ _ => named
  · exact named

theorem resolveOne_comesFrom (taken : FuncKey → Bool) :
    Gives (resolveOne table taken scope decl)
      fun found => ∀ named ∈ found, named.2.ComesFrom decl := by
  unfold resolveOne
  split
  · rename_i plain
    have own : decl.typeParams ⊆ decl.boundParams := by
      rw [FuncDecl.boundParams, plain]
      exact List.Subset.refl _
    exact resolveUnder_comesFrom taken _ own (by simp) (by simp)
  · rename_i params written
    refine (resolveReceiver_typeParams written).bind fun accepted held => ?_
    cases accepted with
    | none => exact .pure (by simp)
    | some found =>
      -- The receiver's own type parameters are all that the method has in scope.
      have inner := held found rfl
      refine resolveUnder_comesFrom taken _
        (List.Subset.trans (ResolvedType.receiverParams_subset _) inner) ?_ ?_
      · rintro var ⟨⟩
        exact inner
      · rintro var ⟨⟩
        exact List.Subset.refl _

/-- Every function of a package comes from a declaration in one of its files. -/
theorem exists_comesFrom {metadata : Metadata} {files : List SourceFile} {function : Function}
    (member : function ∈ (Package.ofFiles metadata files).functions) :
    ∃ file ∈ files, function.file = file.path ∧
      ∃ decl ∈ file.funcDecls, function.ComesFrom decl := by
  rw [(ofFiles_isSettled metadata files).functions] at member
  -- Each function is what one declaration of one of the files resolves to by itself.
  obtain ⟨⟨scope, decl⟩, declared, found⟩ := List.mem_filterMap.mp member
  obtain ⟨file, among, here⟩ := List.mem_flatMap.mp declared
  obtain ⟨decl, listed, same⟩ := List.mem_map.mp here
  cases same
  obtain ⟨named, alone, rfl⟩ := Option.map_eq_some_iff.mp found
  have here := (file_of_alone alone).trans (ofFile_sees metadata.deps file).path
  exact ⟨file, among, here, decl, listed, resolveOne_comesFrom _ ⟨_, []⟩ named alone⟩

end Functions

end Scaffold.Go
