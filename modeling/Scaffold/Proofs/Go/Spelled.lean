import Scaffold.Proofs.Go.FileOrder
import Scaffold.Proofs.Go.Grammar

/-! Types and functions are called by names, as they are resolved from what is read. -/

namespace Scaffold.Go

/-- A type expression that begins with a name if it begins with a word. -/
def TypeExpr.IsSpelled : TypeExpr → Prop
  | .name text _ => isName text.toList = true
  | .qualified _ _ selected => isName selected.toList = true
  | .generic base _ => base.IsSpelled
  | .pointer elem => elem.IsSpelled
  | .paren inner => inner.IsSpelled
  | _ => True

/-- Parameters of a spelled type, with names. -/
structure ParamExpr.IsSpelled (param : ParamExpr) : Prop where
  type : param.type.IsSpelled
  names : ∀ name ∈ param.names, isName name.toList = true

/-- A function with a name and a spelled receiver, whose parameters and results have spelled types. -/
structure FuncDecl.IsSpelled (decl : FuncDecl) : Prop where
  name : isName decl.name.toList = true
  signature : ∀ param ∈ decl.signature.params ++ decl.signature.results, param.type.IsSpelled
  receiver : ∀ params ∈ decl.receiver, ∀ param ∈ params, param.IsSpelled

/-- A type made as the language makes types is spelled. -/
theorem TypeExpr.isSpelled_of_isGrammatical : ∀ type : TypeExpr, type.IsGrammatical → type.IsSpelled
  | .name _ _, made => by rwa [TypeExpr.IsGrammatical] at made
  | .qualified _ _ _, made => by
    rw [TypeExpr.IsGrammatical] at made
    exact made.2
  | .generic base args, made => by
    rw [TypeExpr.IsGrammatical] at made
    exact isSpelled_of_isGrammatical base made.2.1
  | .pointer elem, made => by
    rw [TypeExpr.IsGrammatical] at made
    exact isSpelled_of_isGrammatical elem made
  | .paren inner, made => by
    rw [TypeExpr.IsGrammatical] at made
    exact isSpelled_of_isGrammatical inner made
  | .slice _, _ | .array _ _, _ | .map _ _, _ | .chan _ _, _ | .func _, _ | .struct _, _
  | .interface _, _ | .comment _ _, _ | .approximate _, _ => trivial

theorem AreGrammaticalParams.isSpelled {params : List ParamExpr} (made : AreGrammaticalParams params) :
    ∀ param ∈ params, param.IsSpelled := by
  intro param member
  have alone := areGrammaticalParams_iff.mp made param member
  obtain ⟨names, type, start, variadic⟩ := param
  rw [AreGrammaticalParams] at alone
  exact ⟨type.isSpelled_of_isGrammatical alone.2.2.1, alone.1⟩

theorem FuncDecl.IsGrammatical.isSpelled {decl : FuncDecl} (made : decl.IsGrammatical) :
    decl.IsSpelled where
  name := made.name
  signature := List.forall_mem_append.mpr
    ⟨fun param member => (made.signature.params.isSpelled param member).type,
      fun param member => (made.signature.results.isSpelled param member).type⟩
  receiver params written := (made.receiver params written).isSpelled

/-- A type that is shown by a name if it is shown by a word, also behind pointers. -/
def ResolvedType.IsSpelled : ResolvedType → Prop
  | .basic name => isName name.toList = true
  | .named type => isName type.name.toList = true
  | .aliased _ name _ => isName name.toList = true
  | .param name => isName name.toList = true
  | .pointer elem => elem.IsSpelled
  | _ => True

/-- A variable of a spelled type, with a name or without any. -/
structure Var.IsSpelled (var : Var) : Prop where
  type : var.type.IsSpelled
  name : var.name = "" ∨ isName var.name.toList = true

/-- A function with a name and a spelled receiver, whose parameters and results have spelled types. -/
structure Function.IsSpelled (function : Function) : Prop where
  name : isName function.name.toList = true
  signature : ∀ var ∈ function.signature.params ++ function.signature.results, var.type.IsSpelled
  receiver : ∀ receiver ∈ function.receiver, receiver.IsSpelled

section Resolve

variable {table : NameTable}

/-- Arguments do not change the name of a type. -/
theorem ResolvedType.IsSpelled.withArgs {type : ResolvedType} (spelled : type.IsSpelled)
    (args : List ResolvedType) : (type.withArgs args).IsSpelled := by
  cases type <;> exact spelled

theorem isSpelled_of_predeclared {name : String} {type : ResolvedType}
    (some : isName name.toList = true)
    (found : predeclared? name = .some type) : type.IsSpelled := by
  unfold predeclared? at found
  split at found
  · cases found; trivial
  · split at found
    · cases found; trivial
    · split at found <;> cases found
      exact some

/-- A name stands for a type that is shown by that name. -/
theorem resolveName_spelled {name : String} (some : isName name.toList = true) (start : Nat) :
    Gives (table.resolveName name start) ResolvedType.IsSpelled := by
  -- In turn: a type parameter, a declared type, a predeclared one, and one that is not declared.
  unfold NameTable.resolveName
  split
  · exact .pure some
  · split
    · unfold NameTable.declared
      split
      · refine (Gives.trivial _).bind fun target _ => ?_
        split
        · exact .pure some
        · exact (Gives.trivial _).bind fun _ _ => .pure trivial
      · exact .pure some
    · split
      · rename_i type found
        exact .pure (isSpelled_of_predeclared some found)
      · unfold NameTable.undeclared
        split
        · exact (Gives.trivial _).bind fun _ _ => .pure trivial
        · exact .pure some
        · exact .pure trivial

/-- A spelled expression stands for a spelled type. -/
theorem TypeExpr.resolve_spelled : ∀ expr : TypeExpr, expr.IsSpelled →
    Gives (expr.resolve table) ResolvedType.IsSpelled
  | .name text start, spelled => by
    rw [TypeExpr.resolve]
    exact resolveName_spelled spelled start
  | .qualified package start selected, spelled => by
    rw [TypeExpr.resolve, NameTable.resolveQualified]
    split
    · exact .pure spelled
    · exact (Gives.trivial _).bind fun _ _ => .pure trivial
  | .generic base args, spelled => by
    rw [TypeExpr.resolve]
    exact (base.resolve_spelled spelled).bind fun type named =>
      (Gives.trivial _).bind fun args _ => .pure (named.withArgs args)
  | .pointer elem, spelled => by
    rw [TypeExpr.resolve]
    exact (elem.resolve_spelled spelled).bind fun type named => .pure named
  | .paren inner, spelled => by
    rw [TypeExpr.resolve]
    exact inner.resolve_spelled spelled
  | .slice elem, _ | .array _ elem, _ | .chan _ elem, _ | .func _, _ | .struct _, _
  | .interface _, _ | .comment _ _, _ => by
    rw [TypeExpr.resolve]
    exact (Gives.trivial _).bind fun _ _ => .pure trivial
  | .map key value, _ => by
    rw [TypeExpr.resolve]
    exact (Gives.trivial _).bind fun _ _ => (Gives.trivial _).bind fun _ _ => .pure trivial
  | .approximate text, _ => by
    rw [TypeExpr.resolve]
    exact .pure trivial

theorem resolveParams_spelled {params : List ParamExpr}
    (spelled : ∀ param ∈ params, param.type.IsSpelled) :
    Gives (resolveParams table params) fun vars => ∀ var ∈ vars, var.type.IsSpelled := by
  induction params with
  | nil =>
    rw [resolveParams]
    exact .pure (by simp)
  | cons param rest ih =>
    obtain ⟨names, type, start, variadic⟩ := param
    obtain ⟨first, others⟩ := List.forall_mem_cons.mp spelled
    rw [resolveParams]
    refine (type.resolve_spelled first).bind fun resolved named => ?_
    refine (ih others).bind fun vars given => .pure (List.forall_mem_append.mpr ⟨?_, given⟩)
    -- However many names share it, the type is the same.
    split
    · simp [ResolvedType.IsSpelled]
    · split
      · simpa using named
      · simpa using fun _ _ => named

theorem SignatureExpr.resolve_spelled {signature : SignatureExpr}
    (spelled : ∀ param ∈ signature.params ++ signature.results, param.type.IsSpelled) :
    Gives (signature.resolve table) fun resolved =>
      ∀ var ∈ resolved.params ++ resolved.results, var.type.IsSpelled := by
  obtain ⟨params, results⟩ := signature
  obtain ⟨taken, given⟩ := List.forall_mem_append.mp spelled
  rw [SignatureExpr.resolve]
  exact (resolveParams_spelled taken).bind fun first named =>
    (resolveParams_spelled given).bind fun second also =>
      .pure (List.forall_mem_append.mpr ⟨named, also⟩)

end Resolve

section Functions

variable {table : TypeTable} {scope : FileScope} {decl : FuncDecl}

theorem resolveReceiver_spelled {params : List ParamExpr}
    (spelled : ∀ param ∈ params, param.IsSpelled) :
    Gives (resolveReceiver table scope params) fun result =>
      ∀ found ∈ result, found.1.IsSpelled := by
  unfold resolveReceiver
  split
  · exact .pure (by simp)
  · rename_i param first
    split
    · exact (Gives.trivial _).bind fun _ _ => .pure (by simp)
    · split
      · exact (Gives.trivial _).bind fun _ _ => .pure (by simp)
      · have given := spelled param (List.mem_of_find?_eq_some first)
        refine (param.type.resolve_spelled given.type).bind fun type typed => .pure ?_
        simp only [Option.mem_def, Option.some.injEq, forall_eq']
        -- The first name is the one that counts.
        refine ⟨typed, ?_⟩
        have names := given.names
        generalize param.names = listed at names ⊢
        cases listed with
        | nil => exact .inl rfl
        | cons name others => exact .inr (names name List.mem_cons_self)

/-- A spelled declaration makes a spelled function. -/
theorem resolveUnder_spelled (spelled : decl.IsSpelled) (taken : FuncKey → Bool) (key : FuncKey)
    {receiver : Option Var} (held : ∀ var ∈ receiver, var.IsSpelled)
    (typeParams : List String) :
    Gives (resolveUnder table taken scope decl key receiver typeParams)
      fun found => ∀ named ∈ found, named.2.IsSpelled := by
  have function : Gives (resolveFunction table scope decl receiver typeParams)
      Function.IsSpelled :=
    (SignatureExpr.resolve_spelled spelled.signature).bind fun signature given =>
      .pure ⟨spelled.name, given, held⟩
  have named : Gives
      (do let function ← resolveFunction table scope decl receiver typeParams
          return some (key, function))
      fun found => ∀ named ∈ found, named.2.IsSpelled :=
    function.bind fun function given => .pure (by simpa using given)
  unfold resolveUnder
  split
  · exact (Gives.trivial _).bind fun _ _ => named
  · exact named

theorem resolveOne_spelled (spelled : decl.IsSpelled) (taken : FuncKey → Bool) :
    Gives (resolveOne table taken scope decl) fun found => ∀ named ∈ found, named.2.IsSpelled := by
  unfold resolveOne
  split
  · exact resolveUnder_spelled spelled taken _ (by simp) _
  · rename_i params written
    refine (resolveReceiver_spelled (spelled.receiver params written)).bind fun accepted held => ?_
    cases accepted with
    | none => exact .pure (by simp)
    | some found => exact resolveUnder_spelled spelled taken _ (by simpa using held) _

/-- The functions of a package that is read from texts are spelled. -/
theorem isSpelled_of_mem_functions {metadata : Metadata} {files : List SourceFile}
    (read : ∀ file ∈ files, ∃ path text, file = .ofText path text) {function : Function}
    (member : function ∈ (Package.ofFiles metadata files).functions) : function.IsSpelled := by
  rw [(ofFiles_isSettled metadata files).functions] at member
  -- Each function is what one declaration of one of the files resolves to by itself.
  obtain ⟨⟨scope, decl⟩, declared, found⟩ := List.mem_filterMap.mp member
  obtain ⟨file, among, here⟩ := List.mem_flatMap.mp declared
  obtain ⟨decl, listed, same⟩ := List.mem_map.mp here
  cases same
  obtain ⟨path, text, rfl⟩ := read file among
  obtain ⟨named, alone, rfl⟩ := Option.map_eq_some_iff.mp found
  exact resolveOne_spelled (isGrammatical_of_mem_funcDecls listed).isSpelled _ ⟨_, []⟩ named alone

end Functions

end Scaffold.Go
