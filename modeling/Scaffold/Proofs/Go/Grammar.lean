import Scaffold.Proofs.Go.ArrayLengths

/-! What is read as a type is made as the language makes types. -/

namespace Scaffold.Go

open Reading Reader

mutual

/-- Whether a type expression is made as the language makes them: of names, and of expressions for
the lengths of arrays. -/
def TypeExpr.IsGrammatical : TypeExpr → Prop
  | .name text _ => isName text.toList = true
  | .qualified package _ name => isName package.toList = true ∧ isName name.toList = true
  | .generic base args =>
    base.meaning.isTypeName = true ∧ base.IsGrammatical ∧ args ≠ [] ∧ AreGrammaticalTypes args
  | .pointer elem | .slice elem | .chan _ elem | .paren elem => elem.IsGrammatical
  | .array length elem => IsLength length ∧ elem.IsGrammatical
  | .map key value => key.IsGrammatical ∧ value.IsGrammatical
  | .func signature => signature.IsGrammatical
  | .struct fields => AreGrammaticalFields fields
  | .interface elems => AreGrammaticalElems elems
  | .comment _ _ | .approximate _ => True

/-- Whether all of some type expressions are made like that. -/
def AreGrammaticalTypes : List TypeExpr → Prop
  | [] => True
  | first :: rest => first.IsGrammatical ∧ AreGrammaticalTypes rest

/-- Whether all types in a signature are made like that. -/
def SignatureExpr.IsGrammatical : SignatureExpr → Prop
  | .mk params results => AreGrammaticalParams params ∧ AreGrammaticalParams results

/-- Whether all of some parameters are made like that; one that is spread has at most one name. -/
def AreGrammaticalParams : List ParamExpr → Prop
  | [] => True
  | .mk names type _ variadic :: rest => (∀ name ∈ names, isName name.toList = true) ∧
    (variadic = true → names.length ≤ 1) ∧ type.IsGrammatical ∧ AreGrammaticalParams rest

/-- Whether all of some fields are made like that; embedded are only named types. -/
def AreGrammaticalFields : List FieldExpr → Prop
  | [] => True
  | .named names type _ :: rest => (∀ name ∈ names, isName name.toList = true) ∧
    type.IsGrammatical ∧ AreGrammaticalFields rest
  | .embedded _ type _ :: rest =>
    type.meaning.isNamed = true ∧ type.IsGrammatical ∧ AreGrammaticalFields rest

/-- Whether all of some lines of an interface are made like that. -/
def AreGrammaticalElems : List ElemExpr → Prop
  | [] => True
  | .method name signature :: rest =>
    isName name.toList = true ∧ signature.IsGrammatical ∧ AreGrammaticalElems rest
  | .embedded type :: rest => type.IsGrammatical ∧ AreGrammaticalElems rest
  | .union _ :: rest => AreGrammaticalElems rest

end

section Lists

theorem areGrammaticalTypes_of_forall {types : List TypeExpr}
    (each : ∀ type ∈ types, type.IsGrammatical) : AreGrammaticalTypes types := by
  induction types with
  | nil => trivial
  | cons first rest ih =>
    obtain ⟨one, others⟩ := List.forall_mem_cons.mp each
    rw [AreGrammaticalTypes]
    exact ⟨one, ih others⟩

/-- A parameter by itself is made as the language makes them. -/
theorem areGrammaticalParams_singleton {names : List String} {type : TypeExpr} {start : Nat}
    {variadic : Bool} (named : ∀ name ∈ names, isName name.toList = true)
    (few : variadic = true → names.length ≤ 1) (made : type.IsGrammatical) :
    AreGrammaticalParams [.mk names type start variadic] := by
  rw [AreGrammaticalParams, AreGrammaticalParams]
  exact ⟨named, few, made, trivial⟩

theorem areGrammaticalParams_iff {params : List ParamExpr} :
    AreGrammaticalParams params ↔ ∀ param ∈ params, AreGrammaticalParams [param] := by
  induction params with
  | nil => simp [AreGrammaticalParams]
  | cons first rest ih =>
    obtain ⟨names, type, start, variadic⟩ := first
    rw [List.forall_mem_cons, ← ih, AreGrammaticalParams, AreGrammaticalParams,
      AreGrammaticalParams]
    tauto

theorem SignatureExpr.IsGrammatical.params {signature : SignatureExpr}
    (made : signature.IsGrammatical) : AreGrammaticalParams signature.params := by
  cases signature
  rw [SignatureExpr.IsGrammatical] at made
  exact made.1

theorem SignatureExpr.IsGrammatical.results {signature : SignatureExpr}
    (made : signature.IsGrammatical) : AreGrammaticalParams signature.results := by
  cases signature
  rw [SignatureExpr.IsGrammatical] at made
  exact made.2

theorem areGrammaticalFields_of_forall {fields : List FieldExpr}
    (each : ∀ field ∈ fields, AreGrammaticalFields [field]) : AreGrammaticalFields fields := by
  induction fields with
  | nil => trivial
  | cons first rest ih =>
    obtain ⟨one, others⟩ := List.forall_mem_cons.mp each
    have behind := ih others
    cases first with
    | named names type tag =>
      rw [AreGrammaticalFields] at one ⊢
      exact ⟨one.1, one.2.1, behind⟩
    | embedded pointer type tag =>
      rw [AreGrammaticalFields] at one ⊢
      exact ⟨one.1, one.2.1, behind⟩

theorem areGrammaticalElems_of_forall {elems : List ElemExpr}
    (each : ∀ elem ∈ elems, AreGrammaticalElems [elem]) : AreGrammaticalElems elems := by
  induction elems with
  | nil => trivial
  | cons first rest ih =>
    obtain ⟨one, others⟩ := List.forall_mem_cons.mp each
    have behind := ih others
    cases first with
    | method name signature =>
      rw [AreGrammaticalElems] at one ⊢
      exact ⟨one.1, one.2.1, behind⟩
    | embedded type =>
      rw [AreGrammaticalElems] at one ⊢
      exact ⟨one.1, behind⟩
    | union types =>
      rw [AreGrammaticalElems]
      exact behind

end Lists

namespace Yields

variable {t : Reader TypeExpr}

theorem term (inner : Yields t TypeExpr.IsGrammatical) : Yields (term t) TypeExpr.IsGrammatical :=
  either inner ((seqRight (mark _) inner).withTaken.bind fun _ _ => pure trivial)

theorem union (inner : Yields t TypeExpr.IsGrammatical) :
    Yields (union t) fun types => types ≠ [] ∧ ∀ type ∈ types, type.IsGrammatical :=
  inner.term.bind fun _ holds =>
    (seqRight (mark _) inner.term).many.bind fun _ others =>
      pure ⟨List.cons_ne_nil _ _, List.forall_mem_cons.mpr ⟨holds, others⟩⟩

/-- The arguments of a type are some types. -/
theorem typeArgs (inner : Yields t TypeExpr.IsGrammatical) :
    Yields (typeArgs t) fun args => args ≠ [] ∧ AreGrammaticalTypes args := by
  refine (mark _).bind fun _ _ => inner.union.commaSeparated.bind fun unions made => ?_
  have heads : unions.filterMap List.head? ≠ [] ∧ AreGrammaticalTypes (unions.filterMap List.head?) := by
    obtain ⟨some, each⟩ := made
    refine ⟨fun none => ?_, areGrammaticalTypes_of_forall fun type member => ?_⟩
    · obtain ⟨first, rest, rfl⟩ := List.exists_cons_of_ne_nil some
      have missing := List.filterMap_eq_nil_iff.mp none first List.mem_cons_self
      exact (each first List.mem_cons_self).1 (List.head?_eq_none_iff.mp missing)
    · obtain ⟨union, among, head⟩ := List.mem_filterMap.mp member
      exact (each union among).2 type (List.mem_of_head? head)
  exact (mark _).maybe.bind fun _ _ => (mark _).bind fun _ _ => pure heads

/-- A named type is made of its own name, with or without a package in front of it. -/
theorem namedType (inner : Yields t TypeExpr.IsGrammatical) :
    Yields (namedType t) fun type => type.meaning.isNamed = true ∧ type.IsGrammatical := by
  have name : Yields typeName fun base => base.meaning.isTypeName = true ∧ base.IsGrammatical := by
    refine word.bind fun first named => (seqRight (mark _) word).maybe.bind fun selected selects => ?_
    cases selected with
    | none =>
      refine pure ⟨by simp only [Option.elim, TypeExpr.meaning, TypeMeaning.isTypeName], ?_⟩
      rw [Option.elim, TypeExpr.IsGrammatical]
      exact named
    | some name =>
      refine pure ⟨by simp only [Option.elim, TypeExpr.meaning, TypeMeaning.isTypeName], ?_⟩
      rw [Option.elim, TypeExpr.IsGrammatical]
      exact ⟨named, selects name rfl⟩
  rw [namedType_eq]
  refine name.bind fun base made => inner.typeArgs.maybe.bind fun args given => ?_
  obtain ⟨named, made⟩ := made
  -- With or without a package, the type is named before any arguments are read.
  cases args with
  | none =>
    refine pure ⟨?_, made⟩
    revert named
    rw [Option.elim]
    cases base.meaning <;> simp [TypeMeaning.isTypeName, TypeMeaning.isNamed]
  | some args =>
    obtain ⟨filled, each⟩ := given args rfl
    rw [Option.elim]
    refine pure ⟨by simp only [TypeExpr.meaning, TypeMeaning.isNamed], ?_⟩
    rw [TypeExpr.IsGrammatical]
    exact ⟨named, made, filled, each⟩

end Yields

/-- The type of an entry in a list of parameters. -/
def Reader.ParamEntry.type : ParamEntry → TypeExpr
  | .bare type _ | .named _ type _ | .rest _ type _ => type

/-- The names that an entry in a list of parameters has besides its type. -/
def Reader.ParamEntry.names : ParamEntry → List String
  | .bare _ _ => []
  | .named name _ _ => [name]
  | .rest name _ _ => name.toList

/-- An entry with names, of a type made as the language makes them. -/
structure Reader.ParamEntry.IsGrammatical (entry : ParamEntry) : Prop where
  type : entry.type.IsGrammatical
  names : ∀ name ∈ entry.names, isName name.toList = true

/-- Names share a type if all entries are made like that, and what is behind it is made so too. -/
theorem sharedNames_grammatical {entries : List ParamEntry}
    (made : ∀ entry ∈ entries, entry.IsGrammatical) {names : List String} {type : TypeExpr}
    {start : Nat} {after : List ParamEntry}
    (found : sharedNames entries = some (names, type, start, after)) :
    ((∀ name ∈ names, isName name.toList = true) ∧ type.IsGrammatical) ∧
      ∀ entry ∈ after, entry.IsGrammatical := by
  fun_induction sharedNames entries generalizing names type start after with
  -- The first entry with a name of its own has the type, and what is behind it follows.
  | case1 name type start rest =>
    cases found
    obtain ⟨first, others⟩ := List.forall_mem_cons.mp made
    exact ⟨⟨first.names, first.type⟩, others⟩
  -- A bare name in front of it shares the type.
  | case2 text place place' rest ih =>
    obtain ⟨⟨names, type, start, after⟩, shared, same⟩ := Option.map_eq_some_iff.mp found
    cases same
    obtain ⟨first, others⟩ := List.forall_mem_cons.mp made
    obtain ⟨⟨named, typed⟩, behind⟩ := ih others shared
    have isName := first.type
    rw [ParamEntry.type, TypeExpr.IsGrammatical] at isName
    exact ⟨⟨List.forall_mem_cons.mpr ⟨isName, named⟩, typed⟩, behind⟩
  | case3 => cases found

/-- Parameters are made like that if the entries they are put together from are. -/
theorem groupParams_grammatical {limit : Nat} {entries : List ParamEntry}
    (made : ∀ entry ∈ entries, entry.IsGrammatical) :
    ∀ param ∈ groupParams limit entries, AreGrammaticalParams [param] := by
  fun_induction groupParams limit entries with
  | case1 => simp
  | case2 => simp
  | case3 limit name type start entries ih =>
    obtain ⟨first, others⟩ := List.forall_mem_cons.mp made
    have few : name.toList.length ≤ 1 := by cases name <;> simp
    exact List.forall_mem_cons.mpr
      ⟨areGrammaticalParams_singleton first.names (fun _ => few) first.type, ih others⟩
  | case4 limit name type start entries ih =>
    obtain ⟨first, others⟩ := List.forall_mem_cons.mp made
    exact List.forall_mem_cons.mpr
      ⟨areGrammaticalParams_singleton first.names (by simp) first.type, ih others⟩
  -- Names in front of a named entry take its type, and the rest goes on behind that.
  | case5 limit type start entries names shared place after found ih =>
    obtain ⟨⟨named, typed⟩, behind⟩ := sharedNames_grammatical made found
    exact List.forall_mem_cons.mpr
      ⟨areGrammaticalParams_singleton named (by simp) typed, ih behind⟩
  | case6 limit type start entries none ih =>
    obtain ⟨first, others⟩ := List.forall_mem_cons.mp made
    exact List.forall_mem_cons.mpr
      ⟨areGrammaticalParams_singleton (by simp) (by simp) first.type, ih others⟩

namespace Yields

variable {t : Reader TypeExpr}

theorem paramEntry (inner : Yields t TypeExpr.IsGrammatical) :
    Yields (paramEntry t) ParamEntry.IsGrammatical := by
  refine next.bind fun first _ => either ?_ (either ?_ ?_)
  · refine word.maybe.bind fun name named => (mark _).bind fun _ _ => next.bind fun _ _ =>
      inner.bind fun type made => pure ⟨made, ?_⟩
    simpa [ParamEntry.names] using named
  · refine word.bind fun name named => next.bind fun token _ => inner.bind fun type made => ?_
    exact (of_alike fun _ _ => Alike.ahead).bind fun _ _ =>
      pure ⟨made, by simpa [ParamEntry.names] using named⟩
  · exact inner.bind fun type made => pure ⟨made, by simp [ParamEntry.names]⟩

theorem paramList (inner : Yields t TypeExpr.IsGrammatical) :
    Yields (paramList t) AreGrammaticalParams := by
  refine (mark _).bind fun _ _ => inner.paramEntry.commaSeparated.maybe.bind fun found made => ?_
  have entries : ∀ entry ∈ found.getD [], entry.IsGrammatical := by
    cases found with
    | none => simp
    | some entries => exact (made entries rfl).2
  have grouped : AreGrammaticalParams (groupParams (found.getD []).length (found.getD [])) :=
    areGrammaticalParams_iff.mpr (groupParams_grammatical entries)
  cases found with
  | none => exact (mark _).bind fun _ _ => pure grouped
  | some entries =>
    exact (mark _).maybe.bind fun _ _ => (mark _).bind fun _ _ => pure grouped

theorem signature (inner : Yields t TypeExpr.IsGrammatical) :
    Yields (signature t) SignatureExpr.IsGrammatical := by
  refine inner.paramList.bind fun params taken => ?_
  -- A result without parentheses is one type without a name.
  have single : Yields (do
      let token ← Reading.next
      guard (!token.isMark "(")
      return [.mk [] (← t) token.start false] : Reader (List ParamExpr)) AreGrammaticalParams :=
    next.bind fun _ _ => (guarded _).bind fun _ _ => inner.bind fun type made =>
      pure (areGrammaticalParams_singleton (by simp) (by simp) made)
  refine (either inner.paramList single).maybe.bind fun found given => pure ?_
  rw [SignatureExpr.IsGrammatical]
  refine ⟨taken, ?_⟩
  cases found with
  | none => simp [AreGrammaticalParams]
  | some results => exact given results rfl

theorem fieldTag : Yields fieldTag fun _ => True :=
  literal.maybe.bind fun _ _ => next.bind fun _ _ => (guarded _).bind fun _ _ => pure trivial

theorem field (inner : Yields t TypeExpr.IsGrammatical) :
    Yields (field t) fun field => AreGrammaticalFields [field] := by
  refine either ?_ ?_
  · refine word.commaSeparated.bind fun names named => inner.bind fun type made =>
      fieldTag.bind fun _ _ => pure ?_
    rw [AreGrammaticalFields, AreGrammaticalFields, List.forall_mem_map]
    exact ⟨named.2, made, trivial⟩
  · refine (mark _).maybe.bind fun _ _ => inner.namedType.bind fun type made =>
      fieldTag.bind fun _ _ => pure ?_
    rw [AreGrammaticalFields, AreGrammaticalFields]
    exact ⟨made.1, made.2, trivial⟩

theorem elem (inner : Yields t TypeExpr.IsGrammatical) :
    Yields (elem t) fun elem => AreGrammaticalElems [elem] := by
  refine either ?_ ?_
  · refine word.bind fun name named => inner.signature.bind fun read made => pure ?_
    rw [AreGrammaticalElems, AreGrammaticalElems]
    exact ⟨named, made, trivial⟩
  · refine inner.union.bind fun types made => ?_
    split
    · refine pure ?_
      rw [AreGrammaticalElems, AreGrammaticalElems]
      exact ⟨made.2 _ List.mem_cons_self, trivial⟩
    · refine pure ?_
      rw [AreGrammaticalElems, AreGrammaticalElems]
      trivial

theorem lines {α : Type} {line : Reader α} {good : α → Prop} (each : Yields line good) :
    Yields (lines line) fun values => ∀ value ∈ values, good value := by
  refine (mark _).bind fun _ _ => each.maybe.bind fun first made => ?_
  cases first with
  | none => exact (mark _).bind fun _ _ => pure (by simp)
  | some first =>
    exact (seqRight done each).many.bind fun _ others => done.maybe.bind fun _ _ =>
      (mark _).bind fun _ _ => pure (List.forall_mem_cons.mpr ⟨made first rfl, others⟩)

theorem channel (inner : Yields t TypeExpr.IsGrammatical) :
    Yields (channel t) TypeExpr.IsGrammatical := by
  have made : ∀ dir, Yields (TypeExpr.chan dir <$> t) TypeExpr.IsGrammatical :=
    fun dir => inner.map fun type holds => by rwa [TypeExpr.IsGrammatical]
  refine either ?_ (either ?_ (made _))
  · exact (of_alike fun _ _ => Alike.ahead).bind fun _ _ => made _
  · exact (mark _).bind fun _ _ => made _

/-- Behind an opening bracket a slice goes on, or an array with its length. -/
theorem bracketed (inner : Yields t TypeExpr.IsGrammatical) : Yields (do
    match ← Reading.maybe (Reader.mark "]") with
    | some _ => return .slice (← t)
    | none =>
      let (_, tokens) ← Reading.withTaken (phrase (.rule (.expression true)))
      let _ ← Reader.mark "]"
      return .array (sourceOf tokens) (← t) : Reader TypeExpr) TypeExpr.IsGrammatical := by
  have slice : Yields (TypeExpr.slice <$> t) TypeExpr.IsGrammatical :=
    inner.map fun type made => by rwa [TypeExpr.IsGrammatical]
  have expression : Yields (Reading.withTaken (phrase (.rule (.expression true)))) fun _ => True :=
    (of_alike fun _ _ => phrase_alike (.expression true)).withTaken.imp fun _ _ => trivial
  intro tokens worded value rest run
  cases closed : Reader.mark "]" tokens with
  | some result =>
    rw [bind_of_run (maybe_of_run closed)] at run
    exact slice _ (mark _ tokens worded _ _ closed).2 value rest run
  | none =>
    rw [bind_of_run (maybe_of_none closed)] at run
    dsimp only at run
    rw [bind_run] at run
    obtain ⟨⟨⟨⟨⟩, taken⟩, between⟩, read, behind⟩ := Option.bind_eq_some_iff.mp run
    have left := (expression tokens worded _ _ read).2
    rw [bind_run] at behind
    obtain ⟨⟨closing, more⟩, bracket, last⟩ := Option.bind_eq_some_iff.mp behind
    have isLength := isLength_of_read worded closed read (by rw [bracket]; rfl)
    have array : Yields (TypeExpr.array (sourceOf taken) <$> t) TypeExpr.IsGrammatical :=
      inner.map fun type made => by
        rw [TypeExpr.IsGrammatical]
        exact ⟨isLength, made⟩
    exact array more (mark _ between left _ _ bracket).2 value rest last

/-- A type is made as the language makes them if the types inside it are. -/
theorem typeWith (inner : Yields t TypeExpr.IsGrammatical) :
    Yields (typeWith t (phrase (.rule (.expression true)))) TypeExpr.IsGrammatical := by
  have stray : Yields strayComment fun stray => ∀ type ∈ stray, type.IsGrammatical := by
    refine next.bind fun token _ => pure ?_
    simp only [Option.mem_map]
    rintro type ⟨comment, -, rfl⟩
    rw [TypeExpr.IsGrammatical]
    trivial
  -- What a pointer or parentheses are put around is a type or a comment.
  have inside : ∀ {stray : Option TypeExpr} {type : TypeExpr},
      (∀ comment ∈ stray, comment.IsGrammatical) → type.IsGrammatical →
        (stray.getD type).IsGrammatical := by
    intro stray type stands made
    cases stray with
    | none => exact made
    | some comment => exact stands comment rfl
  refine next.bind fun first _ => ?_
  -- In turn: a name, a pointer, parentheses, a list, a map, channels, a function, and braces.
  split
  · exact inner.namedType.imp fun _ made => made.2
  split
  · refine (mark _).bind fun _ _ => stray.bind fun comment stands =>
      inner.bind fun elem made => pure ?_
    rw [TypeExpr.IsGrammatical]
    exact inside stands made
  split
  · refine (mark _).bind fun _ _ => stray.bind fun comment stands =>
      inner.bind fun elem made => (mark _).bind fun _ _ => pure ?_
    rw [TypeExpr.IsGrammatical]
    exact inside stands made
  split
  · exact (mark _).bind fun _ _ => inner.bracketed
  split
  · refine (mark _).bind fun _ _ => (mark _).bind fun _ _ => inner.bind fun key one =>
      (mark _).bind fun _ _ => inner.bind fun value other => pure ?_
    rw [TypeExpr.IsGrammatical]
    exact ⟨one, other⟩
  split
  · exact seqRight (mark _) inner.channel
  split
  · refine (mark _).bind fun _ _ => (mark _).bind fun _ _ => inner.bind fun elem made => pure ?_
    rwa [TypeExpr.IsGrammatical]
  split
  · refine (mark _).bind fun _ _ => inner.signature.bind fun read made => pure ?_
    rwa [TypeExpr.IsGrammatical]
  split
  · refine (mark _).bind fun _ _ => inner.field.lines.bind fun fields made => pure ?_
    rw [TypeExpr.IsGrammatical]
    exact areGrammaticalFields_of_forall made
  split
  · refine (mark _).bind fun _ _ => inner.elem.lines.bind fun elems made => pure ?_
    rw [TypeExpr.IsGrammatical]
    exact areGrammaticalElems_of_forall made
  · exact failure

/-- What is read as a type is made as the language makes types, whatever is inside it. -/
theorem type : Yields Reader.type TypeExpr.IsGrammatical := by
  have within : ∀ depth, Yields (typeWithin (phrase (.rule (.expression true))) depth)
      TypeExpr.IsGrammatical := by
    intro depth
    induction depth with
    | zero => exact failure
    | succ depth ih => exact ih.typeWith
  intro tokens worded value rest run
  exact within tokens.length tokens worded value rest run

end Yields

/-- A function with a name, of a signature and with a receiver made as the language makes them. -/
structure FuncDecl.IsGrammatical (decl : FuncDecl) : Prop where
  name : isName decl.name.toList = true
  signature : decl.signature.IsGrammatical
  receiver : ∀ params ∈ decl.receiver, AreGrammaticalParams params

/-- A declared function is made as the language makes them. -/
theorem Yields.funcDecl : Yields Reader.funcDecl FuncDecl.IsGrammatical := by
  have block : Yields (Reading.maybe (phrase (.rule .block))) fun _ => True :=
    of_alike fun _ _ => .maybe (phrase_alike .block)
  have params : Yields (Reading.maybe (typeParams Reader.type)) fun _ => True :=
    of_alike fun _ _ => .maybe (typeParams_alike fun _ _ => type_alike)
  -- A body behind the signature decides on no more than where the function ends.
  have withBody : ∀ {read : Reader FuncDecl}, Yields read FuncDecl.IsGrammatical → Yields (do
      let taken ← Reading.withTaken (read <* Reading.maybe (phrase (.rule .block)))
      return { taken.1 with stop := stopOf taken.2 }) FuncDecl.IsGrammatical := fun made =>
    (seqLeft made block).withTaken.bind fun _ holds =>
      pure ⟨holds.name, holds.signature, holds.receiver⟩
  refine withBody (either ?_ ?_)
  -- A function without a receiver, which may have type parameters, and a method.
  · exact (mark _).bind fun _ _ => word.bind fun name named => params.bind fun _ _ =>
      type.signature.bind fun read given => pure ⟨named, given, by simp⟩
  · exact (mark _).bind fun _ _ => type.paramList.bind fun receiver held =>
      word.bind fun name named => type.signature.bind fun read given =>
        pure ⟨named, given, by simpa using held⟩

/-- The functions of a file are made as the language makes them. -/
theorem isGrammatical_of_mem_funcDecls {path : FilePath} {text : String} {decl : FuncDecl}
    (member : decl ∈ (SourceFile.ofText path text).funcDecls) : decl.IsGrammatical := by
  obtain ⟨item, among, same⟩ := List.mem_filterMap.mp member
  split at same <;> cases same
  obtain ⟨taken, found⟩ := exists_taken_of_mem among
  obtain ⟨after, worded, run⟩ := isWorded_of_mem found
  exact (Yields.funcDecl _ worded _ _ (funcDecl_of_item run)).1

end Scaffold.Go
