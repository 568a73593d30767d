import Scaffold.Proofs.Go.Doubts
import Scaffold.Proofs.Go.Grammar
import Scaffold.Proofs.Go.Renamed
import Scaffold.Proofs.Go.WrittenAs

/-! Where nothing is reported, a type is written as its expression is spelled by its meaning. -/

namespace Scaffold.Go

/-- Whether all of some parameters have names, or none. -/
def areLabelled (params : List ParamExpr) : Bool :=
  params.all (fun param => !param.names.isEmpty) || params.all fun param => param.names.isEmpty

mutual

/--
Whether a type expression has no part that a resolved type has no room for.

Such parts are the arguments of an alias, the tags of fields, and unions and approximations in
interfaces.  A name that any of several dot imports may bring in stands for no type at all, and an
arrow behind the word for channels is read as that of the element.
-/
def TypeExpr.isKept (sight : Sight) : TypeExpr → Bool
  | .name text _ => !(sight.doubts text).contains (.unresolved text)
  | .qualified _ _ _ | .comment _ _ => true
  | .generic base args => base.takesArgs sight && base.isKept sight && areKeptTypes sight args
  | .chan .both (.chan .receive _) => false
  | .pointer elem | .slice elem | .array _ elem | .chan _ elem | .paren elem => elem.isKept sight
  | .map key value => key.isKept sight && value.isKept sight
  | .func signature => signature.isKept sight
  | .struct fields => areKeptFields sight fields
  | .interface elems => areKeptElems sight elems
  | .approximate _ => false

/-- Whether all of some type expressions are kept. -/
def areKeptTypes (sight : Sight) : List TypeExpr → Bool
  | [] => true
  | first :: rest => first.isKept sight && areKeptTypes sight rest

/-- Whether a signature is kept; its parameters are listed as the language has them. -/
def SignatureExpr.isKept (sight : Sight) : SignatureExpr → Bool
  | .mk params results => areKeptParams sight params && areKeptParams sight results &&
    areLabelled params && areLabelled results && params.dropLast.all (!·.variadic) &&
    results.all (!·.variadic)

/-- Whether the types of parameters are kept. -/
def areKeptParams (sight : Sight) : List ParamExpr → Bool
  | [] => true
  | .mk _ type _ _ :: rest => type.isKept sight && areKeptParams sight rest

/-- Whether fields are kept, which have no tags. -/
def areKeptFields (sight : Sight) : List FieldExpr → Bool
  | [] => true
  | .named _ type tag :: rest | .embedded _ type tag :: rest =>
    tag.isNone && type.isKept sight && areKeptFields sight rest

/-- Whether the lines of an interface are kept, none of which is a union. -/
def areKeptElems (sight : Sight) : List ElemExpr → Bool
  | [] => true
  | .method _ signature :: rest => signature.isKept sight && areKeptElems sight rest
  | .embedded type :: rest => type.isKept sight && areKeptElems sight rest
  | .union _ :: _ => false

end

section Names

variable {qualifier : PackageRef → String}

variable (qualifier) in
/-- A declared name behind the qualifier for its package. -/
def underQualifier (package : PackageRef) (name : String) : TypeMeaning :=
  if qualifier package = "" then .name name else .qualified (qualifier package) name

/-- A text that can stand in front of a declared name, or that leaves the name bare. -/
def IsQualifying (text : String) : Prop :=
  text = "" ∨ isName text.toList = true

theorem isTypeName_underQualifier (package : PackageRef) (name : String) :
    (underQualifier qualifier package name).isTypeName = true := by
  unfold underQualifier
  split <;> rfl

/-- A type that is written by its name alone is spelled by it behind the qualifier. -/
theorem isWrittenAs_under {type : ResolvedType} {package : PackageRef} {name : String}
    (pieces : type.pieces = [.name package name]) (other : type.takesArrow .both = false)
    (qualifies : IsQualifying (qualifier package)) (is : isName name.toList = true) :
    type.IsWrittenAs qualifier (underQualifier qualifier package name) := by
  have written : type.chars qualifier = (qualifiedName (qualifier package) name).toList := by
    rw [ResolvedType.chars, pieces, charsOf, List.flatMap_singleton]
    rfl
  unfold underQualifier
  split
  case isTrue bare =>
    refine .name is ?_ other
    rw [written, bare]
    rfl
  case isFalse filled =>
    have named := qualifies.resolve_left filled
    refine ⟨by rw [TypeMeaning.IsPlain]; exact ⟨named, is⟩, ?_, other⟩
    rw [written, qualifiedName, if_neg (by simpa using filled), TypeMeaning.lexemes]
    simp

variable (qualifier) in
/-- What the names in sight of a table are written as. -/
def NameTable.writtenNaming (table : NameTable) : Naming where
  name text :=
    if table.params.contains text then .name text
    else match table.decls.lookup text with
      | some _ => underQualifier qualifier table.package text
      | none =>
        if (predeclared? text).isSome then .name text
        else match table.scope.dots with
          | [package] => underQualifier qualifier package text
          | _ => .name text
  qualified package name :=
    if isName package.toList then
      match table.scope.named.lookup package with
      | some found => underQualifier qualifier found name
      | none => .qualified package name
    else .qualified package name

theorem keepsNames_writtenNaming (table : NameTable) : (table.writtenNaming qualifier).KeepsNames where
  name text := by
    simp only [NameTable.writtenNaming]
    repeat' split
    all_goals first | rfl | exact isTypeName_underQualifier _ _
  qualified package name := by
    simp only [NameTable.writtenNaming]
    repeat' split
    all_goals first | rfl | exact isTypeName_underQualifier _ _

variable (qualifier) in
/-- A qualifier that can be written for all packages in sight. -/
structure NameTable.IsQualifiedBy (table : NameTable) : Prop where
  own : IsQualifying (qualifier table.package)
  named {name : String} {package : PackageRef} : isName name.toList = true →
    table.scope.named.lookup name = some package → IsQualifying (qualifier package)
  dots : ∀ package ∈ table.scope.dots, IsQualifying (qualifier package)

variable (qualifier) in
/-- A type that is written as an expression is spelled by its meaning, and that takes its arguments. -/
structure ResolvedType.Renders (type : ResolvedType) (table : NameTable) (expr : TypeExpr) : Prop where
  written : type.IsWrittenAs qualifier (expr.meaning.renamed (table.writtenNaming qualifier))
  takes : expr.takesArgs table.sight = true → expr.meaning.isTypeName = true →
    ∃ named : NamedType, type = .named named ∧ named.args = []

variable {table : NameTable}

/-- A predeclared type is written by its name. -/
theorem isWrittenAs_predeclared {type : ResolvedType} {name : String} (is : isName name.toList = true)
    (found : predeclared? name = some type) : type.IsWrittenAs qualifier (.name name) := by
  unfold predeclared? at found
  split at found
  case isTrue same =>
    cases found
    exact .name is (by rw [chars_error, eq_of_beq same]) rfl
  case isFalse =>
    split at found
    case isTrue same =>
      cases found
      exact .name is (by rw [chars_any, eq_of_beq same]) rfl
    case isFalse =>
      split at found <;> cases found
      exact .name is (chars_basic qualifier name) rfl

/-- A declared name is written behind the qualifier of the package. -/
theorem declared_renders (traced : table.IsTraced) (qualifies : table.IsQualifiedBy qualifier)
    {name : String} {decl : TypeDecl} (fresh : table.params.contains name = false)
    (found : table.decls.lookup name = some decl) (is : isName name.toList = true) (start : Nat) :
    Traces table.decls (table.declared name start decl) fun type =>
      type.Renders qualifier table (.name name start) := by
  have renamed : (TypeExpr.name name start).meaning.renamed (table.writtenNaming qualifier) =
      underQualifier qualifier table.package name := by
    simp only [TypeExpr.meaning, TypeMeaning.renamed, NameTable.writtenNaming, fresh, found,
      Bool.false_eq_true, if_false]
  obtain ⟨-, takes⟩ := sightOf_declared table.scope fresh found
  unfold NameTable.declared
  split
  case isTrue second =>
    refine (traced name decl found second).bind (fun target => ?_) fun target _ => ?_
    · split
      · exact grows_isStepwise.pure _
      · exact grows_isStepwise.map (grows_report table.scope start (.recursiveAlias name)) _
    · split
      · -- An alias takes no arguments.
        refine .pure ⟨?_, fun takesArgs => ?_⟩
        · rw [renamed]
          exact isWrittenAs_under (by rw [ResolvedType.pieces]) rfl qualifies.own is
        · rw [TypeExpr.takesArgs, NameTable.sight, takes, second] at takesArgs
          cases takesArgs
      · exact .report table.scope start (.recursiveAlias name) _
  case isFalse first =>
    refine .pure ⟨?_, fun _ _ => ⟨_, rfl, rfl⟩⟩
    rw [renamed]
    exact isWrittenAs_under (by rw [ResolvedType.pieces, NamedType.pieces]) rfl qualifies.own is

/-- A name that nothing declares is reported, or is written behind the qualifier of the only package
that may bring it in. -/
theorem undeclared_renders (qualifies : table.IsQualifiedBy qualifier) {name : String}
    (fresh : table.params.contains name = false) (missing : table.decls.lookup name = none)
    (free : predeclared? name = none) (kept : (TypeExpr.name name 0).isKept table.sight = true)
    (is : isName name.toList = true) (start : Nat) :
    Traces table.decls (table.undeclared name start) fun type =>
      type.Renders qualifier table (.name name start) := by
  obtain ⟨doubts, -⟩ := sightOf_other table.scope fresh missing free
  unfold NameTable.undeclared
  split
  case h_1 => exact .report table.scope start (.undefined name) _
  case h_2 package one =>
    refine .pure ⟨?_, fun _ _ => ⟨_, rfl, rfl⟩⟩
    have renamed : (TypeExpr.name name start).meaning.renamed (table.writtenNaming qualifier) =
        underQualifier qualifier package name := by
      simp only [TypeExpr.meaning, TypeMeaning.renamed, NameTable.writtenNaming, fresh, missing,
        free, one, Bool.false_eq_true, if_false, Option.isSome_none]
    rw [renamed]
    exact isWrittenAs_under (by rw [foreignType, ResolvedType.pieces, NamedType.pieces]) rfl
      (qualifies.dots package (by simp [one])) is
  case h_3 none several =>
    -- With several dot imports the name is in doubt, and not kept.
    have many : 1 < table.scope.dots.length := by
      rcases listed : table.scope.dots with _ | ⟨package, _ | _⟩
      · exact absurd listed none
      · exact absurd listed (several package)
      · simp
    rw [TypeExpr.isKept, NameTable.sight, doubts, if_pos many] at kept
    simp at kept

/-- A plain name is written as such, or behind the qualifier of its package. -/
theorem resolveName_renders (traced : table.IsTraced) (qualifies : table.IsQualifiedBy qualifier)
    {name : String} {start : Nat} (kept : (TypeExpr.name name start).isKept table.sight = true)
    (is : isName name.toList = true) :
    Traces table.decls (table.resolveName name start) fun type =>
      type.Renders qualifier table (.name name start) := by
  unfold NameTable.resolveName
  split
  case isTrue held =>
    obtain ⟨-, takes⟩ := sightOf_param table.scope table.decls held
    refine .pure ⟨?_, fun takesArgs => ?_⟩
    · simp only [TypeExpr.meaning, TypeMeaning.renamed, NameTable.writtenNaming, held, if_true]
      exact .name is (chars_param qualifier name) rfl
    · rw [TypeExpr.takesArgs, NameTable.sight, takes] at takesArgs
      cases takesArgs
  case isFalse fresh =>
    have fresh := eq_false_of_ne_true fresh
    split
    case h_1 decl found => exact declared_renders traced qualifies fresh found is start
    case h_2 missing =>
      split
      case h_1 type found =>
        obtain ⟨-, takes⟩ := sightOf_predeclared table.scope fresh missing found
        refine .pure ⟨?_, fun takesArgs => ?_⟩
        · simp only [TypeExpr.meaning, TypeMeaning.renamed, NameTable.writtenNaming, fresh, missing,
            found, Bool.false_eq_true, if_false, Option.isSome_some, if_true]
          exact isWrittenAs_predeclared is found
        · rw [TypeExpr.takesArgs, NameTable.sight, takes] at takesArgs
          cases takesArgs
      case h_2 free => exact undeclared_renders qualifies fresh missing free kept is start

/-- A name behind that of a package is written behind the qualifier of that package. -/
theorem resolveQualified_renders (qualifies : table.IsQualifiedBy qualifier) {package name : String}
    (front : isName package.toList = true) (is : isName name.toList = true) (start : Nat) :
    Traces table.decls (table.resolveQualified package start name) fun type =>
      type.Renders qualifier table (.qualified package start name) := by
  unfold NameTable.resolveQualified
  split
  · rename_i found imported
    refine .pure ⟨?_, fun _ _ => ⟨_, rfl, rfl⟩⟩
    simp only [TypeExpr.meaning, TypeMeaning.renamed, NameTable.writtenNaming, front, imported,
      if_true]
    exact isWrittenAs_under (by rw [foreignType, ResolvedType.pieces, NamedType.pieces]) rfl
      (qualifies.named front imported) is
  · exact .report table.scope start (.undefined package) _

end Names

section Lists

variable {sight : Sight} {params : List ParamExpr}

/-- A channel that is kept has its own arrow. -/
theorem isKept_chan {dir : ChanDir} {elem : TypeExpr}
    (kept : (TypeExpr.chan dir elem).isKept sight = true) :
    elem.isKept sight = true ∧ (TypeExpr.chan dir elem).meaning = .chan dir elem.meaning := by
  cases dir with
  | send | receive =>
    rw [TypeExpr.isKept] at kept
    · exact ⟨kept, by simp only [TypeExpr.meaning]⟩
    · simp
  | both =>
    have own : ∀ inner, elem ≠ .chan .receive inner := by
      rintro inner rfl
      rw [TypeExpr.isKept] at kept
      cases kept
    rw [TypeExpr.isKept] at kept
    · refine ⟨kept, ?_⟩
      simp only [TypeExpr.meaning]
      unfold channelMeaning
      split
      · exact absurd rfl (own _)
      · rfl
    · rintro inner - rfl
      exact absurd rfl (own inner)

theorem paramMeanings_cons (first : ParamExpr) (rest : List ParamExpr) :
    paramMeanings (first :: rest) =
      singleParams first.names first.type.meaning first.variadic ++ paramMeanings rest := by
  obtain ⟨names, type, start, variadic⟩ := first
  rw [paramMeanings]
  rfl

theorem mem_singleParams {names : List String} {type : TypeMeaning} {variadic : Bool}
    {param : ParamMeaning} (member : param ∈ singleParams names type variadic) :
    param.variadic = variadic ∧ param.name.isSome = !names.isEmpty := by
  unfold singleParams at member
  split at member
  case isTrue none =>
    rw [List.mem_singleton.mp member, none]
    exact ⟨rfl, rfl⟩
  case isFalse some =>
    obtain ⟨name, -, rfl⟩ := List.mem_map.mp member
    rw [eq_false_of_ne_true some]
    exact ⟨rfl, rfl⟩

/-- Each meaning of a parameter is that of some written one. -/
theorem mem_paramMeanings {param : ParamMeaning} (member : param ∈ paramMeanings params) :
    ∃ expr ∈ params, param.variadic = expr.variadic ∧ param.name.isSome = !expr.names.isEmpty := by
  induction params with
  | nil => cases member
  | cons first rest ih =>
    rw [paramMeanings_cons] at member
    rcases List.mem_append.mp member with here | later
    · exact ⟨first, List.mem_cons_self, mem_singleParams here⟩
    · obtain ⟨expr, among, same⟩ := ih later
      exact ⟨expr, List.mem_cons_of_mem _ among, same⟩

/-- Where all written parameters have names, or none, so have what they mean. -/
theorem areLabelled_paramMeanings (labelled : areLabelled params = true) :
    AreLabelled (paramMeanings params) := by
  rw [areLabelled, Bool.or_eq_true, List.all_eq_true, List.all_eq_true] at labelled
  refine labelled.imp (fun all param member => ?_) fun none param member => ?_
  · obtain ⟨expr, among, -, same⟩ := mem_paramMeanings member
    rw [same]
    exact all expr among
  · obtain ⟨expr, among, -, same⟩ := mem_paramMeanings member
    rw [none expr among] at same
    exact Option.isSome_eq_false_iff.mp same |> Option.isNone_iff_eq_none.mp

theorem singleParams_ne_nil (names : List String) (type : TypeMeaning) (variadic : Bool) :
    singleParams names type variadic ≠ [] := by
  unfold singleParams
  split
  · simp
  · rename_i some
    simpa using some

/-- Some parameter is spread exactly if some written one is. -/
theorem any_variadic (params : List ParamExpr) :
    (paramMeanings params).any ParamMeaning.variadic = params.any ParamExpr.variadic := by
  induction params with
  | nil => rfl
  | cons first rest ih =>
    rw [paramMeanings_cons, List.any_append, ih, List.any_cons]
    congr 1
    obtain ⟨param, more, same⟩ := List.exists_cons_of_ne_nil
      (singleParams_ne_nil first.names first.type.meaning first.variadic)
    rw [Bool.eq_iff_iff, List.any_eq_true]
    constructor
    · rintro ⟨param, member, variadic⟩
      rwa [(mem_singleParams member).1] at variadic
    · intro variadic
      have member : param ∈ singleParams first.names first.type.meaning first.variadic := by simp [same]
      exact ⟨param, member, by rwa [(mem_singleParams member).1]⟩

/-- Where only the last written parameter may be spread, only the last of those it stands for is. -/
theorem dropLast_variadic (grammatical : AreGrammaticalParams params)
    (spreads : params.dropLast.all (!·.variadic) = true) :
    ∀ param ∈ (paramMeanings params).dropLast, param.variadic = false := by
  induction params with
  | nil => simp [paramMeanings]
  | cons first rest ih =>
    obtain ⟨names, type, start, variadic⟩ := first
    rw [AreGrammaticalParams] at grammatical
    obtain ⟨-, few, -, others⟩ := grammatical
    intro param member
    cases rest with
    | nil =>
      rw [paramMeanings, paramMeanings, List.append_nil] at member
      have whole := mem_singleParams (List.dropLast_subset _ member)
      rw [whole.1]
      by_contra spread
      -- One that is spread stands for a single parameter.
      rw [eq_true_of_ne_false spread] at few member
      have short := few rfl
      rcases names with _ | ⟨name, _ | _⟩
      · cases member
      · cases member
      · simp at short
    | cons second more =>
      simp only [List.dropLast_cons_cons, List.all_cons, Bool.and_eq_true] at spreads
      obtain ⟨single, later⟩ := spreads
      rw [paramMeanings_cons, List.dropLast_append_of_ne_nil (by
        rw [paramMeanings_cons]
        exact List.append_ne_nil_of_left_ne_nil (singleParams_ne_nil _ _ _) _)] at member
      rcases List.mem_append.mp member with here | behind
      · rw [(mem_singleParams here).1]
        simpa using single
      · exact ih others later param behind

end Lists

section Resolve

variable {qualifier : PackageRef → String} {table : NameTable} {resolved : ResolvedType}
  {type : TypeExpr}

/-- The variables that a written parameter stands for are written as its meanings. -/
theorem vars_renders (renders : resolved.Renders qualifier table type) {names : List String}
    {variadic : Bool} (named : ∀ name ∈ names, isName name.toList = true)
    (few : variadic = true → names.length ≤ 1) :
    List.Forall₂ (Var.IsWrittenAs qualifier)
      (if variadic then [⟨names.headD "", .slice resolved⟩]
        else if names.isEmpty then [⟨"", resolved⟩]
        else names.map fun name => ⟨name, resolved⟩)
      ((singleParams names type.meaning variadic).map
        (ParamMeaning.renamed (table.writtenNaming qualifier))) := by
  have written := renders.written
  cases variadic with
  | true =>
    -- At most one name is spread.
    match names with
    | [] => exact .cons ⟨rfl, by simp [ParamMeaning.renamed, ParamMeaning.name], _, written, rfl⟩ .nil
    | [name] =>
      refine .cons ⟨rfl, ?_, _, written, rfl⟩ .nil
      simpa [ParamMeaning.renamed, ParamMeaning.name] using named
    | _ :: _ :: _ => simp at few
  | false =>
    rw [if_neg Bool.false_ne_true]
    unfold singleParams
    split
    · exact .cons ⟨rfl, by simp [ParamMeaning.renamed, ParamMeaning.name], _, written, rfl⟩ .nil
    · rw [List.map_map, List.forall₂_map_left_iff, List.forall₂_map_right_iff]
      refine List.forall₂_same.mpr fun name member => ⟨rfl, ?_, _, written, rfl⟩
      simpa [ParamMeaning.renamed, ParamMeaning.name] using named name member

theorem isEmbeddable_of_isNamed {meaning : TypeMeaning} (named : meaning.isNamed = true) :
    meaning.isEmbeddable = true := by
  cases meaning <;> first | exact named | cases named

/-- A field is written as its meaning. -/
theorem field_renders {held : ResolvedType} {meaning : TypeMeaning} {name : Option String}
    (written : held.IsWrittenAs qualifier (meaning.renamed (table.writtenNaming qualifier)))
    (named : ∀ text ∈ name, isName text.toList = true)
    (embeddable : name = none → meaning.isEmbeddable = true) :
    (StructField.mk name held).IsWrittenAs qualifier
      ((FieldMeaning.mk name meaning none).renamed (table.writtenNaming qualifier)) := by
  have keeps : (table.writtenNaming qualifier).KeepsNames := keepsNames_writtenNaming table
  refine ⟨rfl, ?_, written⟩
  rw [FieldMeaning.renamed, ArePlainFields]
  refine ⟨named, fun none => ?_, rfl, written.plain, trivial⟩
  cases named : meaning.isNamed with
  | true => exact isEmbeddable_of_isNamed (keeps.isNamed named)
  | false =>
    have embedded := embeddable none
    cases meaning with
    | pointer elem =>
      rw [TypeMeaning.renamed]
      exact keeps.isNamed embedded
    | _ => exact absurd (named.symm.trans embedded) Bool.false_ne_true

/-- Parameters keep their names, and whether they are spread, when names in their types change. -/
theorem renamed_labelled (naming : Naming) {params : List ParamMeaning} (labelled : AreLabelled params) :
    AreLabelled (params.map (ParamMeaning.renamed naming)) := by
  rw [AreLabelled, List.forall_mem_map, List.forall_mem_map]
  exact labelled

-- One case for each form of an expression: it is written as its parts are.
mutual

/-- Where nothing is reported, a type is written as its expression is spelled by its meaning. -/
theorem TypeExpr.resolve_renders (traced : table.IsTraced)
    (qualifies : table.IsQualifiedBy qualifier) : ∀ expr : TypeExpr, expr.IsGrammatical →
      expr.isKept table.sight = true → Traces table.decls (expr.resolve table) fun type =>
        type.Renders qualifier table expr
  | .name text start, is, kept => by
    rw [TypeExpr.IsGrammatical] at is
    rw [TypeExpr.resolve]
    exact resolveName_renders traced qualifies kept is
  | .qualified package start name, is, _ => by
    rw [TypeExpr.IsGrammatical] at is
    rw [TypeExpr.resolve]
    exact resolveQualified_renders qualifies is.1 is.2 start
  | .generic base args, is, kept => by
    rw [TypeExpr.IsGrammatical] at is
    obtain ⟨typeName, inner, filled, others⟩ := is
    rw [TypeExpr.isKept, Bool.and_eq_true, Bool.and_eq_true] at kept
    obtain ⟨⟨takes, based⟩, rest⟩ := kept
    rw [TypeExpr.resolve]
    refine (base.resolve_renders traced qualifies inner based).both
      (resolveTypes_renders traced qualifies args others rest) _ ?_
    rintro type types ⟨written, named⟩ each
    obtain ⟨named, rfl, bare⟩ := named takes typeName
    refine ⟨?_, fun _ not => by simp only [TypeExpr.meaning] at not; cases not⟩
    simp only [TypeExpr.meaning, TypeMeaning.renamed]
    refine .withArgs bare written ((keepsNames_writtenNaming table).isTypeName typeName) each ?_
    obtain ⟨first, more, rfl⟩ := List.exists_cons_of_ne_nil filled
    simp [typeMeanings, renamedTypes]
  | .pointer elem, is, kept => by
    rw [TypeExpr.IsGrammatical] at is
    rw [TypeExpr.isKept] at kept
    rw [TypeExpr.resolve]
    refine (elem.resolve_renders traced qualifies is kept).map _ fun type given => ⟨?_, by rintro ⟨⟩⟩
    simpa only [TypeExpr.meaning, TypeMeaning.renamed] using given.written.pointer
  | .slice elem, is, kept => by
    rw [TypeExpr.IsGrammatical] at is
    rw [TypeExpr.isKept] at kept
    rw [TypeExpr.resolve]
    refine (elem.resolve_renders traced qualifies is kept).map _ fun type given => ⟨?_, by rintro ⟨⟩⟩
    simpa only [TypeExpr.meaning, TypeMeaning.renamed] using given.written.slice
  | .array length elem, is, kept => by
    rw [TypeExpr.IsGrammatical] at is
    rw [TypeExpr.isKept] at kept
    rw [TypeExpr.resolve]
    refine (elem.resolve_renders traced qualifies is.2 kept).map _ fun type given =>
      ⟨?_, by rintro ⟨⟩⟩
    simpa only [TypeExpr.meaning, TypeMeaning.renamed] using given.written.array is.1
  | .map key value, is, kept => by
    rw [TypeExpr.IsGrammatical] at is
    rw [TypeExpr.isKept, Bool.and_eq_true] at kept
    rw [TypeExpr.resolve]
    refine (key.resolve_renders traced qualifies is.1 kept.1).both
      (value.resolve_renders traced qualifies is.2 kept.2) _ fun first second one other =>
        ⟨?_, by rintro ⟨⟩⟩
    simpa only [TypeExpr.meaning, TypeMeaning.renamed] using one.written.map other.written
  | .chan dir elem, is, kept => by
    rw [TypeExpr.IsGrammatical] at is
    obtain ⟨kept, meaning⟩ := isKept_chan kept
    rw [TypeExpr.resolve]
    refine (elem.resolve_renders traced qualifies is kept).map _ fun type given => ⟨?_, by rintro ⟨⟩⟩
    rw [meaning]
    simpa only [TypeMeaning.renamed] using given.written.chan dir
  | .func signature, is, kept => by
    rw [TypeExpr.IsGrammatical] at is
    rw [TypeExpr.isKept] at kept
    rw [TypeExpr.resolve]
    refine (signature.resolve_renders traced qualifies is kept).map _ fun resolved given =>
      ⟨?_, by rintro ⟨⟩⟩
    simpa only [TypeExpr.meaning, TypeMeaning.renamed] using
      ResolvedType.IsWrittenAs.func given
  | .struct fields, is, kept => by
    rw [TypeExpr.IsGrammatical] at is
    rw [TypeExpr.isKept] at kept
    rw [TypeExpr.resolve]
    refine (resolveFields_renders traced qualifies fields is kept).map _ fun resolved given =>
      ⟨?_, by rintro ⟨⟩⟩
    simpa only [TypeExpr.meaning, TypeMeaning.renamed] using
      ResolvedType.IsWrittenAs.struct given
  | .interface elems, is, kept => by
    rw [TypeExpr.IsGrammatical] at is
    rw [TypeExpr.isKept] at kept
    rw [TypeExpr.resolve]
    refine (resolveElems_renders traced qualifies elems is kept).map _ fun resolved given =>
      ⟨?_, by rintro ⟨⟩⟩
    simpa only [TypeExpr.meaning, TypeMeaning.renamed] using
      ResolvedType.IsWrittenAs.interface given
  | .paren inner, is, kept => by
    rw [TypeExpr.IsGrammatical] at is
    rw [TypeExpr.isKept] at kept
    rw [TypeExpr.resolve]
    refine (inner.resolve_renders traced qualifies is kept).imp fun type given => ⟨?_, ?_⟩
    · simpa only [TypeExpr.meaning] using given.written
    · simpa only [TypeExpr.meaning, TypeExpr.takesArgs] using given.takes
  | .comment text start, _, _ => by
    rw [TypeExpr.resolve]
    exact .report table.scope start .strayComment _
  | .approximate text, _, kept => by
    rw [TypeExpr.isKept] at kept
    cases kept

theorem resolveTypes_renders (traced : table.IsTraced)
    (qualifies : table.IsQualifiedBy qualifier) : ∀ types : List TypeExpr,
      AreGrammaticalTypes types → areKeptTypes table.sight types = true →
        Traces table.decls (resolveTypes table types) fun resolved =>
          List.Forall₂ (ResolvedType.IsWrittenAs qualifier) resolved
            (renamedTypes (table.writtenNaming qualifier) (typeMeanings types))
  | [], _, _ => by
    rw [resolveTypes]
    exact .pure .nil
  | first :: rest, is, kept => by
    rw [AreGrammaticalTypes] at is
    rw [areKeptTypes, Bool.and_eq_true] at kept
    rw [resolveTypes]
    exact (first.resolve_renders traced qualifies is.1 kept.1).both
      (resolveTypes_renders traced qualifies rest is.2 kept.2) _ fun type types one others =>
        .cons one.written others

theorem SignatureExpr.resolve_renders (traced : table.IsTraced)
    (qualifies : table.IsQualifiedBy qualifier) : ∀ signature : SignatureExpr,
      signature.IsGrammatical → signature.isKept table.sight = true →
        Traces table.decls (signature.resolve table) fun resolved =>
          resolved.IsWrittenAs qualifier (signature.meaning.renamed (table.writtenNaming qualifier))
  | .mk params results, is, kept => by
    rw [SignatureExpr.IsGrammatical] at is
    simp only [SignatureExpr.isKept, Bool.and_eq_true] at kept
    obtain ⟨⟨⟨⟨⟨taken, given⟩, labelled⟩, named⟩, spreads⟩, single⟩ := kept
    rw [SignatureExpr.resolve]
    refine (resolveParams_renders traced qualifies params is.1 taken).both
      (resolveParams_renders traced qualifies results is.2 given) _ fun first second one other => ?_
    let naming := table.writtenNaming qualifier
    have whole := Signature.IsWrittenAs.mk_of_vars one other
      (renamed_labelled naming (areLabelled_paramMeanings labelled))
      (renamed_labelled naming (areLabelled_paramMeanings named)) (by
        rw [← List.map_dropLast, List.forall_mem_map]
        exact dropLast_variadic is.1 spreads) (by
        rw [List.forall_mem_map]
        intro param member
        obtain ⟨expr, among, same, -⟩ := mem_paramMeanings member
        have alone := List.all_eq_true.mp single expr among
        exact same.trans (by simpa using alone))
    rw [List.any_map] at whole
    have same : (paramMeanings params).any (ParamMeaning.variadic ∘ ParamMeaning.renamed naming) =
        params.any ParamExpr.variadic := any_variadic params
    rw [same] at whole
    simpa only [SignatureExpr.meaning, SignatureMeaning.renamed, renamedParams_eq_map] using whole

theorem resolveParams_renders (traced : table.IsTraced)
    (qualifies : table.IsQualifiedBy qualifier) : ∀ params : List ParamExpr,
      AreGrammaticalParams params → areKeptParams table.sight params = true →
        Traces table.decls (resolveParams table params) fun vars =>
          List.Forall₂ (Var.IsWrittenAs qualifier) vars
            ((paramMeanings params).map (ParamMeaning.renamed (table.writtenNaming qualifier)))
  | [], _, _ => by
    rw [resolveParams]
    exact .pure .nil
  | .mk names type start variadic :: rest, is, kept => by
    rw [AreGrammaticalParams] at is
    obtain ⟨named, few, inner, others⟩ := is
    rw [areKeptParams, Bool.and_eq_true] at kept
    rw [resolveParams]
    refine (type.resolve_renders traced qualifies inner kept.1).both
      (resolveParams_renders traced qualifies rest others kept.2) _ fun resolved vars one more => ?_
    rw [paramMeanings, List.map_append]
    exact List.rel_append (vars_renders one named few) more

theorem resolveFields_renders (traced : table.IsTraced)
    (qualifies : table.IsQualifiedBy qualifier) : ∀ fields : List FieldExpr,
      AreGrammaticalFields fields → areKeptFields table.sight fields = true →
        Traces table.decls (resolveFields table fields) fun resolved =>
          List.Forall₂ (StructField.IsWrittenAs qualifier) resolved
            (renamedFields (table.writtenNaming qualifier) (fieldMeanings fields))
  | [], _, _ => by
    rw [resolveFields]
    exact .pure .nil
  | .named names type tag :: rest, is, kept => by
    rw [AreGrammaticalFields] at is
    obtain ⟨named, inner, others⟩ := is
    simp only [areKeptFields, Bool.and_eq_true, Option.isNone_iff_eq_none] at kept
    obtain ⟨⟨rfl, typed⟩, more⟩ := kept
    rw [resolveFields]
    refine (type.resolve_renders traced qualifies inner typed).both
      (resolveFields_renders traced qualifies rest others more) _ fun resolved fields one later => ?_
    rw [renamedFields_eq_map] at later ⊢
    rw [fieldMeanings, List.map_append, List.map_map]
    refine List.rel_append ?_ later
    rw [List.forall₂_map_left_iff, List.forall₂_map_right_iff]
    exact List.forall₂_same.mpr fun name member =>
      field_renders one.written (by simpa using named name member) (by simp)
  | .embedded pointer type tag :: rest, is, kept => by
    rw [AreGrammaticalFields] at is
    obtain ⟨named, inner, others⟩ := is
    simp only [areKeptFields, Bool.and_eq_true, Option.isNone_iff_eq_none] at kept
    obtain ⟨⟨rfl, typed⟩, more⟩ := kept
    rw [resolveFields]
    refine (type.resolve_renders traced qualifies inner typed).both
      (resolveFields_renders traced qualifies rest others more) _ fun resolved fields one later => ?_
    rw [renamedFields_eq_map] at later ⊢
    rw [fieldMeanings, List.map_cons]
    refine .cons (field_renders ?_ (by simp) fun _ => ?_) later
    · cases pointer with
      | false => exact one.written
      | true =>
        rw [if_pos rfl, if_pos rfl, TypeMeaning.renamed]
        exact one.written.pointer
    · cases pointer with
      | false => exact isEmbeddable_of_isNamed named
      | true => exact named

theorem resolveElems_renders (traced : table.IsTraced)
    (qualifies : table.IsQualifiedBy qualifier) : ∀ elems : List ElemExpr,
      AreGrammaticalElems elems → areKeptElems table.sight elems = true →
        Traces table.decls (resolveElems table elems) fun resolved =>
          List.Forall₂ (InterfaceElem.IsWrittenAs qualifier) resolved
            (renamedElems (table.writtenNaming qualifier) (elemMeanings elems))
  | [], _, _ => by
    rw [resolveElems]
    exact .pure .nil
  | .method name signature :: rest, is, kept => by
    rw [AreGrammaticalElems] at is
    rw [areKeptElems, Bool.and_eq_true] at kept
    rw [resolveElems]
    refine (signature.resolve_renders traced qualifies is.2.1 kept.1).both
      (resolveElems_renders traced qualifies rest is.2.2 kept.2) _ fun resolved elems one more => ?_
    rw [elemMeanings, renamedElems]
    refine .cons ⟨by rw [ArePlainElems]; exact ⟨is.1, one.plain, trivial⟩, ?_⟩ more
    rw [elemLexemes, elemLexemes, InterfaceElem.chars, InterfaceElem.pieces, charsOf_text,
      ← Signature.chars, one.chars]
    simp
  | .embedded type :: rest, is, kept => by
    rw [AreGrammaticalElems] at is
    rw [areKeptElems, Bool.and_eq_true] at kept
    rw [resolveElems]
    refine (type.resolve_renders traced qualifies is.1 kept.1).both
      (resolveElems_renders traced qualifies rest is.2 kept.2) _ fun resolved elems one more => ?_
    rw [elemMeanings, renamedElems]
    refine .cons ⟨by rw [ArePlainElems]; exact ⟨one.written.plain, trivial⟩, ?_⟩ more
    rw [elemLexemes, elemLexemes, chars_embedded, one.written.chars]
    simp
  | .union types :: rest, _, kept => by
    rw [areKeptElems] at kept
    cases kept

end

end Resolve

end Scaffold.Go
