import Scaffold.Proofs.Go.Kept
import Scaffold.Proofs.Go.ReadBack
import Scaffold.Proofs.Go.Resolved

/-! The types of parameters and results are written as they are declared. -/

namespace Scaffold.Go

section Names

/-- A name that can be written for an imported package. -/
def FileScope.Binds (scope : FileScope) (name : String) (package : PackageRef) : Prop :=
  isName name.toList = true ∧ scope.named.lookup name = some package

/-- A qualifier that gives back the names that packages have in a file. -/
structure FileScope.IsGivenBackBy (scope : FileScope) (own : PackageRef)
    (qualifier : PackageRef → String) : Prop where
  own : qualifier own = ""
  named {name : String} {package : PackageRef} :
    scope.Binds name package → scope.Binds (qualifier package) package
  dots : ∀ package ∈ scope.dots, qualifier package = "" ∨ scope.Binds (qualifier package) package

/-- What the names in a file stand for: those of other packages are told by the paths of these. -/
def locating (decls : TypeDecls) (scope : FileScope) (params : List String) : Naming where
  name text :=
    if params.contains text || decls.declares text || (predeclared? text).isSome then .name text
    else match scope.dots with
      | [package] => .qualified package.path text
      | _ => .name text
  qualified package name :=
    match scope.named.lookup package with
    | some found => .qualified found.path name
    | none => .qualified package name

/-- What a name stands for is a name. -/
theorem isTypeName_locating (decls : TypeDecls) (scope : FileScope) (params : List String)
    (text : String) : ((locating decls scope params).name text).isTypeName = true := by
  unfold locating
  dsimp only
  repeat' split
  all_goals rfl

variable {qualifier : PackageRef → String} {table : NameTable}

/-- Such a qualifier can be written for all packages in sight. -/
theorem FileScope.IsGivenBackBy.isQualifiedBy
    (back : table.scope.IsGivenBackBy table.package qualifier) : table.IsQualifiedBy qualifier where
  own := .inl back.own
  named named found := .inr (back.named ⟨named, found⟩).1
  dots package member := (back.dots package member).imp_right And.left

/-- A name behind the qualifier for its package stands for that of the package. -/
theorem renamed_underQualifier {scope : FileScope} {package : PackageRef}
    (binds : scope.Binds (qualifier package) package) (decls : TypeDecls) (params : List String)
    (name : String) : (underQualifier qualifier package name).renamed (locating decls scope params) =
      .qualified package.path name := by
  have filled : qualifier package ≠ "" := by
    intro empty
    have named := binds.1
    rw [empty] at named
    cases named
  rw [underQualifier, if_neg filled, TypeMeaning.renamed]
  simp only [locating, binds.2]

/-- The names that are written stand for what those in the source stand for. -/
theorem writtenNaming_andThen_locating
    (back : table.scope.IsGivenBackBy table.package qualifier) :
    (table.writtenNaming qualifier).andThen (locating table.decls table.scope table.params) =
      locating table.decls table.scope table.params := by
  let naming := locating table.decls table.scope table.params
  have names : ∀ text, ((table.writtenNaming qualifier).name text).renamed naming =
      naming.name text := by
    intro text
    have bare : (TypeMeaning.name text).renamed naming = naming.name text := by
      rw [TypeMeaning.renamed]
    simp only [NameTable.writtenNaming]
    split
    case isTrue => exact bare
    case isFalse fresh =>
      split
      case h_1 =>
        rw [underQualifier, if_pos back.own]
        exact bare
      case h_2 missing =>
        split
        case isTrue => exact bare
        case isFalse free =>
          split
          case h_1 package only =>
            -- The only package that may bring the name in can have a name of its own in the file.
            rcases back.dots package (by simp [only]) with empty | binds
            · rw [underQualifier, if_pos empty]
              exact bare
            · rw [renamed_underQualifier binds]
              simp only [naming, locating, TypeDecls.declares, fresh, missing, free, only,
                Option.isSome_none, Bool.or_self, Bool.false_eq_true, if_false]
          case h_2 => exact bare
  have members : ∀ package name, ((table.writtenNaming qualifier).qualified package name).renamed
      naming = naming.qualified package name := by
    intro package name
    have bare : (TypeMeaning.qualified package name).renamed naming =
        naming.qualified package name := by
      rw [TypeMeaning.renamed]
    simp only [NameTable.writtenNaming]
    split
    case isTrue named =>
      split
      case h_1 found bound =>
        rw [renamed_underQualifier (back.named ⟨named, bound⟩)]
        simp only [naming, locating, bound]
      case h_2 => exact bare
    case isFalse => exact bare
  show Naming.mk _ _ = _
  rw [funext names, funext fun package => funext (members package)]

end Names

/-- The text that a type is written as. -/
def ResolvedType.text (type : ResolvedType) (qualifier : PackageRef → String) : String :=
  Id.run (writePieces (fun package => pure (qualifier package)) type.pieces)

/-- A type whose text says what an expression says, with the names in both told by what they stand
for. -/
def ResolvedType.GivesBack (type : ResolvedType) (qualifier : PackageRef → String) (naming : Naming)
    (expr : TypeExpr) : Prop :=
  ∃ read, typeIn (type.text qualifier).toList = some read ∧
    read.meaning.renamed naming = expr.meaning.renamed naming

/-- The types of the variables that parameters are, one for each name. -/
def heldTypes (params : List ParamExpr) : List TypeExpr :=
  params.flatMap fun param => List.replicate (max 1 param.names.length)
    (if param.variadic then .slice param.type else param.type)

/-- The type parameters in sight of the parameters and results of a function. -/
def FuncDecl.paramsInSight (decls : TypeDecls) (decl : FuncDecl) : List String :=
  match decl.receiver with
  | none => decl.typeParams
  | some params =>
    match acceptedReceiver? decls.declares params with
    | none => []
    | some (type, _) => type.boundParams decls.defines

/-- A variable whose type says what an expression says, unless that has a part that types have no
room for. -/
def Var.GivesBack (qualifier : PackageRef → String) (decls : TypeDecls) (scope : FileScope)
    (typeParams : List String) (expr : TypeExpr) (var : Var) : Prop :=
  expr.isKept (sightOf decls scope typeParams) = true →
    var.type.GivesBack qualifier (locating decls scope typeParams) expr

/-- A function that is declared at some place, with types that say what they say there. -/
structure Function.IsFaithful (function : Function) (qualifier : PackageRef → String)
    (decls : TypeDecls) (scope : FileScope) (decl : FuncDecl) (typeParams : List String) : Prop where
  file : function.file = scope.path
  start : function.start = decl.start
  name : function.name = decl.name
  params : List.Forall₂ (Var.GivesBack qualifier decls scope typeParams)
    (heldTypes decl.signature.params) function.signature.params
  results : List.Forall₂ (Var.GivesBack qualifier decls scope typeParams)
    (heldTypes decl.signature.results) function.signature.results

section Resolve

variable {qualifier : PackageRef → String} {table : NameTable}

/-- A type that is written as an expression is spelled says what the expression says. -/
theorem ResolvedType.IsWrittenAs.givesBack {type : ResolvedType} {expr : TypeExpr}
    (written : type.IsWrittenAs qualifier (expr.meaning.renamed (table.writtenNaming qualifier)))
    (back : table.scope.IsGivenBackBy table.package qualifier) :
    type.GivesBack qualifier (locating table.decls table.scope table.params) expr := by
  obtain ⟨read, found, same⟩ := TypeMeaning.typeIn_chars written.plain
  refine ⟨read, ?_, ?_⟩
  · rw [ResolvedType.text, toList_writePieces, ← ResolvedType.chars, written.chars, found]
  · rw [same, TypeMeaning.renamed_renamed, writtenNaming_andThen_locating back]

/-- The variables that a parameter is have its type, a list if it is spread. -/
theorem vars_giveBack {type : TypeExpr} {resolved : ResolvedType}
    (back : table.scope.IsGivenBackBy table.package qualifier)
    (written : type.isKept table.sight = true →
      resolved.IsWrittenAs qualifier (type.meaning.renamed (table.writtenNaming qualifier)))
    {names : List String} {variadic : Bool} (few : variadic = true → names.length ≤ 1) :
    List.Forall₂ (Var.GivesBack qualifier table.decls table.scope table.params)
      (List.replicate (max 1 names.length) (if variadic then .slice type else type))
      (if variadic then [⟨names.headD "", .slice resolved⟩]
        else if names.isEmpty then [⟨"", resolved⟩]
        else names.map fun name => ⟨name, resolved⟩) := by
  cases variadic with
  | true =>
    have one : max 1 names.length = 1 := Nat.max_eq_left (few rfl)
    rw [one, if_pos rfl, if_pos rfl, List.replicate_one]
    refine .cons (fun kept => ?_) .nil
    rw [TypeExpr.isKept] at kept
    refine ResolvedType.IsWrittenAs.givesBack ?_ back
    rw [TypeExpr.meaning, TypeMeaning.renamed]
    exact (written kept).slice
  | false =>
    have same : ∀ name, Var.GivesBack qualifier table.decls table.scope table.params type ⟨name, resolved⟩ :=
      fun _ kept => (written kept).givesBack back
    cases names with
    | nil => exact .cons (same "") .nil
    | cons name names =>
      have each : ∀ names : List String,
          List.Forall₂ (Var.GivesBack qualifier table.decls table.scope table.params)
            (List.replicate names.length type) (names.map fun name => ⟨name, resolved⟩) := by
        intro names
        induction names with
        | nil => exact .nil
        | cons name rest ih => exact .cons (same name) ih
      have many : max 1 (name :: names).length = (name :: names).length :=
        Nat.max_eq_right (by simp)
      rw [many]
      exact each (name :: names)

/-- Where nothing is reported, parameters are written as they are declared. -/
theorem resolveParams_givesBack (traced : table.IsTraced)
    (back : table.scope.IsGivenBackBy table.package qualifier) {params : List ParamExpr}
    (made : AreGrammaticalParams params) :
    Traces table.decls (resolveParams table params)
      (List.Forall₂ (Var.GivesBack qualifier table.decls table.scope table.params) (heldTypes params)) := by
  induction params with
  | nil =>
    rw [resolveParams]
    exact .pure .nil
  | cons param rest ih =>
    obtain ⟨names, type, start, variadic⟩ := param
    rw [AreGrammaticalParams] at made
    obtain ⟨-, few, typed, others⟩ := made
    have one : Traces table.decls (type.resolve table) fun resolved =>
        type.isKept table.sight = true → resolved.IsWrittenAs qualifier
          (type.meaning.renamed (table.writtenNaming qualifier)) := by
      by_cases kept : type.isKept table.sight = true
      · exact (type.resolve_renders traced back.isQualifiedBy typed kept).imp
          fun _ given _ => given.written
      · exact (type.resolve_traces traced).imp fun _ _ is => absurd is kept
    rw [resolveParams]
    refine one.both (ih others) _ fun resolved vars written later => ?_
    rw [heldTypes, List.flatMap_cons]
    exact List.rel_append (vars_giveBack back written few) later

end Resolve

section Functions

variable {qualifier : PackageRef → String} {table : TypeTable} {scope : FileScope} {decl : FuncDecl}

/-- Of the type parameters in sight, only the names decide on what names stand for. -/
theorem locating_congr {decls : TypeDecls} {first second : List String}
    (same : ∀ name, name ∈ first ↔ name ∈ second) :
    locating decls scope first = locating decls scope second := by
  have held : first.contains = second.contains := by
    funext name
    rw [Bool.eq_iff_iff, List.contains_iff_mem, List.contains_iff_mem]
    exact same name
  rw [locating, locating, held]

/-- A function is resolved with types that say what they say in its declaration. -/
theorem resolveFunction_givesBack (made : decl.IsGrammatical)
    (back : scope.IsGivenBackBy table.package qualifier) (receiver : Option Var)
    {typeParams params : List String} (same : ∀ name, name ∈ typeParams ↔ name ∈ params) :
    Traces table.decls (resolveFunction table scope decl receiver typeParams) fun function =>
      function.IsFaithful qualifier table.decls scope decl params := by
  have signature : Traces table.decls (decl.signature.resolve (table.names scope typeParams))
      fun signature =>
        List.Forall₂ (Var.GivesBack qualifier table.decls scope typeParams)
          (heldTypes decl.signature.params) signature.params ∧
        List.Forall₂ (Var.GivesBack qualifier table.decls scope typeParams)
          (heldTypes decl.signature.results) signature.results := by
    have traced := table.names_isTraced scope typeParams
    have one := made.signature.params
    have other := made.signature.results
    generalize decl.signature = expr at one other ⊢
    obtain ⟨taken, given⟩ := expr
    rw [SignatureExpr.resolve]
    exact (resolveParams_givesBack traced back one).both (resolveParams_givesBack traced back other) _
      fun _ _ first second => ⟨first, second⟩
  have congr : Var.GivesBack qualifier table.decls scope typeParams =
      Var.GivesBack qualifier table.decls scope params := by
    funext expr var
    rw [Var.GivesBack, Var.GivesBack, sightOf_congr same, locating_congr same]
  rw [congr] at signature
  exact signature.map _ fun resolved given => ⟨rfl, rfl, rfl, given.1, given.2⟩

/-- A receiver that stands there is accepted, or reported. -/
theorem resolveReceiver_refuses {params : List ParamExpr}
    (some : ∃ param ∈ params, param.variadic = false)
    (refused : acceptedReceiver? table.decls.declares params = none) :
    Traces table.decls (resolveReceiver table scope params) fun _ => False := by
  unfold resolveReceiver
  split
  case h_1 missing =>
    obtain ⟨param, member, single⟩ := some
    exact absurd (List.find?_eq_none.mp missing param member) (by simp [single])
  case h_2 param first =>
    split
    case h_1 => exact .report scope param.start .invalidReceiver _
    case h_2 base start typeParams reads =>
      split
      case isTrue => exact .report scope start (.foreignReceiver base) _
      case isFalse known =>
        have declared : table.decls.declares base = true := by
          simpa [TypeDecls.declares, Option.isSome_iff_ne_none] using known
        have accepted := acceptedReceiver?_eq_some.mpr
          ⟨param, base, start, first, reads, declared, rfl⟩
        rw [refused] at accepted
        cases accepted

/-- A declaration makes a function with types that say what they say there. -/
theorem resolveOne_givesBack (made : decl.IsGrammatical)
    (back : scope.IsGivenBackBy table.package qualifier)
    (received : ∀ params ∈ decl.receiver, ∃ param ∈ params, param.variadic = false) :
    Traces table.decls (resolveOne table (fun _ => false) scope decl) fun found =>
      ∃ named ∈ found, named.2.IsFaithful qualifier table.decls scope decl
        (decl.paramsInSight table.decls) := by
  have under : ∀ (key : FuncKey) (receiver : Option Var) {typeParams : List String},
      (∀ name, name ∈ typeParams ↔ name ∈ decl.paramsInSight table.decls) →
        Traces table.decls (resolveUnder table (fun _ => false) scope decl key receiver typeParams)
          fun found => ∃ named ∈ found, named.2.IsFaithful qualifier table.decls scope decl
            (decl.paramsInSight table.decls) := by
    intro key receiver typeParams same
    rw [resolveUnder_free]
    exact (resolveFunction_givesBack made back receiver same).map _ fun function given =>
      ⟨(key, function), rfl, given⟩
  unfold resolveOne
  split
  case h_1 plain => exact under _ none fun name => by rw [FuncDecl.paramsInSight, plain]
  case h_2 params written =>
    cases accepted : acceptedReceiver? table.decls.declares params with
    | none =>
      exact (resolveReceiver_refuses (received params written) accepted).bind grows_resolveBehind
        fun _ impossible => impossible.elim
    | some found =>
      obtain ⟨type, typeParams⟩ := found
      refine (resolveReceiver_traces accepted).bind grows_resolveBehind ?_
      rintro result ⟨receiver, base, rfl, -, names⟩
      refine under _ (some receiver) fun name => ?_
      rw [names, FuncDecl.paramsInSight, written]
      simp only [accepted]

end Functions

/-- If nothing is wrong with a package, each declaration in its files makes a function with types that
say what they say there. -/
theorem exists_isFaithful {metadata : Metadata} {files : List SourceFile}
    (read : ∀ file ∈ files, ∃ path text, file = .ofText path text)
    (quiet : (Package.ofFiles metadata files).errors = []) {file : SourceFile}
    (among : file ∈ files) {decl : FuncDecl} (declared : decl ∈ file.funcDecls)
    (received : ∀ params ∈ decl.receiver, ∃ param ∈ params, param.variadic = false)
    {qualifier : PackageRef → String}
    (back : (FileScope.ofFile metadata.deps file).IsGivenBackBy metadata.ref qualifier) :
    ∃ function ∈ (Package.ofFiles metadata files).functions,
      function.IsFaithful qualifier (typesIn metadata.deps files)
        (FileScope.ofFile metadata.deps file) decl
        (decl.paramsInSight (typesIn metadata.deps files)) := by
  have made : decl.IsGrammatical := by
    obtain ⟨path, text, rfl⟩ := read file among
    exact isGrammatical_of_mem_funcDecls declared
  have ordered := inKeyOrder_collect metadata.deps files
  obtain ⟨functions, errors⟩ := ofFiles_isSettled metadata files
  unfold typesIn
  generalize TypeDecls.collect (scopedFiles metadata.deps files) = collected at *
  obtain ⟨decls, repeats⟩ := collected
  dsimp only at *
  rw [quiet] at errors
  obtain ⟨defined, _, single⟩ : _ = [] ∧ _ = [] ∧ errorsAlone _ _ _ = [] := by
    simpa only [List.append_eq_nil_iff] using errors.nil_eq.symm
  -- Nothing is reported for the declared types or for this declaration by itself.
  have sound := areSound_of_quiet ordered defined
  have member : (FileScope.ofFile metadata.deps file, decl) ∈ declaredFuncs metadata.deps files :=
    List.mem_flatMap.mpr ⟨file, among, List.mem_map_of_mem declared⟩
  have silent := List.flatMap_eq_nil_iff.mp single _ member
  have told : (FileScope.ofFile metadata.deps file).IsGivenBackBy
    (tableOf metadata decls repeats).package qualifier := back
  have traces := resolveOne_givesBack made told received
  obtain ⟨named, found, faithful⟩ := (traces.traces ⟨_, []⟩ silent sound).2
  rw [functions, functionsAlone]
  exact ⟨named.2, List.mem_filterMap.mpr ⟨_, member, Option.mem_map_of_mem _ found⟩, faithful⟩

/-- A file with a type of its own, and with one of a package that it gives a name. -/
def listFile : SourceFile :=
  .ofText ⟨"/ws/p/p.go"⟩ ("package p\n\nimport l \"container/list\"\n\ntype S[T any] struct\x7b\x7d\n\n" ++
    "func F(x map[string]*S[l.List], y ...chan (<-chan int)) (e error) \x7b return nil \x7d\n")

/-- The name that the file gives the package. -/
def listQualifier (package : PackageRef) : String :=
  if package = ⟨"container/list", "list"⟩ then "l" else ""

theorem isGivenBackBy_listQualifier :
    (FileScope.ofFile metadataOfTwo.deps listFile).IsGivenBackBy metadataOfTwo.ref listQualifier := by
  have named : (FileScope.ofFile metadataOfTwo.deps listFile).named =
      [("l", ⟨"container/list", "list"⟩)] := by
    decide +kernel
  have dots : (FileScope.ofFile metadataOfTwo.deps listFile).dots = [] := by decide +kernel
  refine ⟨by decide, ?_, by simp [dots]⟩
  rintro name package ⟨isName, found⟩
  rw [named, List.lookup_cons] at found
  split at found
  · cases found
    refine ⟨by decide +kernel, ?_⟩
    rw [named]
    rfl
  · cases found

/-- All types of a function say what they say in its declaration. -/
theorem exists_isFaithful_listFile :
    (Package.ofFiles metadataOfTwo [listFile]).errors = [] ∧ ∃ decl ∈ listFile.funcDecls,
      (∀ expr ∈ heldTypes decl.signature.params ++ heldTypes decl.signature.results,
        expr.isKept (sightOf (typesIn metadataOfTwo.deps [listFile])
          (FileScope.ofFile metadataOfTwo.deps listFile)
          (decl.paramsInSight (typesIn metadataOfTwo.deps [listFile]))) = true) ∧
      ∃ function ∈ (Package.ofFiles metadataOfTwo [listFile]).functions,
        function.IsFaithful listQualifier (typesIn metadataOfTwo.deps [listFile])
          (FileScope.ofFile metadataOfTwo.deps listFile) decl
          (decl.paramsInSight (typesIn metadataOfTwo.deps [listFile])) := by
  have quiet : (Package.ofFiles metadataOfTwo [listFile]).errors = [] := by decide +kernel
  have declared : ∃ decl ∈ listFile.funcDecls, decl.receiver.isNone = true ∧
      ∀ expr ∈ heldTypes decl.signature.params ++ heldTypes decl.signature.results,
        expr.isKept (sightOf (typesIn metadataOfTwo.deps [listFile])
          (FileScope.ofFile metadataOfTwo.deps listFile)
          (decl.paramsInSight (typesIn metadataOfTwo.deps [listFile]))) = true := by
    decide +kernel
  obtain ⟨decl, member, plain, kept⟩ := declared
  refine ⟨quiet, decl, member, kept, ?_⟩
  exact exists_isFaithful (fun file among => ⟨_, _, List.mem_singleton.mp among⟩) quiet
    (List.mem_singleton_self _) member (by simp [Option.isNone_iff_eq_none.mp plain])
    isGivenBackBy_listQualifier

/-- A file with a parameter of an alias that takes arguments. -/
def aliasWithArgs : SourceFile :=
  .ofText ⟨"/ws/p/p.go"⟩ "package p\n\ntype A[T any] = []T\n\nfunc F(x A[int]) \x7b\x7d\n"

/-- Whether the one type has arguments, and the one variable is of an alias that is called so. -/
def isHeldAsAlias (called : String) : List TypeExpr → List Var → Bool
  | [.generic _ _], [⟨_, .aliased _ name _⟩] => name == called
  | _, _ => false

/-- Whether a type is a name by itself. -/
def TypeExpr.isWord : TypeExpr → Bool
  | .name _ _ => true
  | _ => false

/-- The arguments of an alias are lost. -/
theorem not_givesBack_aliasWithArgs :
    (Package.ofFiles metadataOfTwo [aliasWithArgs]).errors = [] ∧
      (FileScope.ofFile metadataOfTwo.deps aliasWithArgs).IsGivenBackBy metadataOfTwo.ref
        (fun _ => "") ∧
      ∃ decl ∈ aliasWithArgs.funcDecls,
        ∃ function ∈ (Package.ofFiles metadataOfTwo [aliasWithArgs]).functions,
          function.start = decl.start ∧
          ¬ List.Forall₂ (fun expr var => var.type.GivesBack (fun _ => "")
              (locating (typesIn metadataOfTwo.deps [aliasWithArgs])
                (FileScope.ofFile metadataOfTwo.deps aliasWithArgs) decl.typeParams) expr)
            (heldTypes decl.signature.params) function.signature.params := by
  have named : (FileScope.ofFile metadataOfTwo.deps aliasWithArgs).named = [] := by decide +kernel
  have dots : (FileScope.ofFile metadataOfTwo.deps aliasWithArgs).dots = [] := by decide +kernel
  have only : ∃ decl ∈ aliasWithArgs.funcDecls,
      ∃ function ∈ (Package.ofFiles metadataOfTwo [aliasWithArgs]).functions,
        function.start = decl.start ∧
        isHeldAsAlias "A" (heldTypes decl.signature.params) function.signature.params = true := by
    decide +kernel
  have bare : (typeIn "A".toList).any TypeExpr.isWord = true := by decide +kernel
  obtain ⟨decl, member, function, made, start, held⟩ := only
  refine ⟨by decide +kernel, ⟨rfl, ?_, by simp [dots]⟩, decl, member, function, made, start, ?_⟩
  · rintro name package ⟨-, found⟩
    rw [named] at found
    cases found
  · intro same
    unfold isHeldAsAlias at held
    split at held
    case h_1 base args _ package name target one other =>
      -- The text of the only parameter is a name, and its declaration says more than that.
      rw [one, other] at same
      obtain ⟨read, found, told⟩ := (List.forall₂_cons.mp same).1
      have text : (ResolvedType.aliased package name target).text (fun _ => "") = "A" := by
        rw [ResolvedType.text, ResolvedType.pieces, eq_of_beq held]
        rfl
      rw [text] at found
      rw [found, Option.any_some] at bare
      cases read with
      | name text place =>
        have names := congrArg TypeMeaning.isTypeName told
        rw [TypeExpr.meaning, TypeMeaning.renamed, isTypeName_locating, TypeExpr.meaning,
          TypeMeaning.renamed] at names
        cases names
      | _ => cases bare
    case h_2 => cases held

end Scaffold.Go
