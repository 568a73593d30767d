import Scaffold.Go.Printed
import Scaffold.Proofs.Go.Shapes

/-! The zero values of parameters that are declared with defined types, and of those that are
declared with aliases which lead to such types. -/

namespace Scaffold.Go

open Relation (TransGen)

section Leads

variable {table : NameTable} {name : String} {start : Nat}

/-- A plain name leads to no declared one but itself, and only where no type parameter hides it. -/
theorem eq_of_nameLead {decls : TypeDecls} {scope : FileScope} {params : List String}
    {text : String} {offset : Nat} (lead : nameLead decls scope params text offset =
      .name name start) : text = name ∧ params.contains name = false := by
  unfold nameLead at lead
  split at lead
  · cases lead
  · rename_i fresh
    split at lead
    · cases lead
      exact ⟨rfl, Bool.eq_false_iff.mpr fresh⟩
    · repeat' split at lead
      all_goals cases lead

/-- What holds of the type of a declared name, with any arguments, holds of the type of each
expression that leads to the name. -/
theorem TypeExpr.resolve_of_lead {good : ResolvedType → Prop}
    (named : table.params.contains name = false →
      ∀ start, Gives (table.resolveName name start) good)
    (withArgs : ∀ type args, good type → good (type.withArgs args)) : ∀ expr : TypeExpr,
    expr.lead table.decls table.scope table.params = .name name start →
      Gives (expr.resolve table) good
  | .name text offset, lead => by
    rw [TypeExpr.lead] at lead
    obtain ⟨rfl, fresh⟩ := eq_of_nameLead lead
    rw [TypeExpr.resolve]
    exact named fresh offset
  | .generic base args, lead => by
    rw [TypeExpr.lead] at lead
    rw [TypeExpr.resolve]
    refine (base.resolve_of_lead named withArgs lead).bind fun type own => ?_
    exact (Gives.trivial _).bind fun types _ => .pure (withArgs type types own)
  | .paren inner, lead => by
    rw [TypeExpr.lead] at lead
    rw [TypeExpr.resolve]
    exact inner.resolve_of_lead named withArgs lead
  | .qualified package offset selected, lead => by
    rw [TypeExpr.lead] at lead
    split at lead <;> cases lead
  | .struct _, lead | .array _ _, lead | .pointer _, lead | .slice _, lead | .map _ _, lead
  | .chan _ _, lead | .func _, lead | .interface _, lead | .comment _ _, lead
  | .approximate _, lead => by
    rw [TypeExpr.lead] at lead
    cases lead

variable {target : String → ResolvedType} {decl : TypeDecl}

/-- With fixed targets, an expression that leads to an alias stands for an alias type. -/
theorem fixed_resolve_alias (found : table.decls.lookup name = some decl)
    (second : decl.spec.isAlias = true) (expr : TypeExpr)
    (lead : expr.lead table.decls table.scope table.params = .name name start) :
    Gives (expr.resolve (table.fixed target)) fun type =>
      type = .aliased table.package name (target name) := by
  refine expr.resolve_of_lead (fun fresh start => ?_) ?_ lead
  · have fresh : table.params.contains name = false := fresh
    rw [NameTable.fixed_resolveName target fresh found second start]
    exact .pure rfl
  · rintro type args rfl
    rfl

/-- An expression that leads to a defined type stands for it, with the shape that is known. -/
theorem fixed_resolve_defined (found : table.decls.lookup name = some decl)
    (first : decl.spec.isAlias = false) (expr : TypeExpr)
    (lead : expr.lead table.decls table.scope table.params = .name name start) :
    Gives (expr.resolve (table.fixed target)) fun type => ∃ args,
      type = .named ⟨table.package, name, args, (table.shapes.lookup name).getD .unknown⟩ := by
  refine expr.resolve_of_lead (fun fresh start => ?_) ?_ lead
  · have fresh : (table.fixed target).params.contains name = false := fresh
    have found : (table.fixed target).decls.lookup name = some decl := found
    rw [resolveName_declared fresh found, NameTable.declared, first, if_neg Bool.false_ne_true]
    exact .pure ⟨[], rfl⟩
  · rintro type args ⟨old, rfl⟩
    exact ⟨args, rfl⟩

end Leads

section Targets

variable {package : PackageRef} {decls : TypeDecls} {target : String → ResolvedType}

/-- A declaration whose right-hand side leads to an alias stands for an alias type. -/
theorem rightHandSide_alias {name : String} {start : Nat} {decl inner : TypeDecl}
    (found : decls.lookup name = some decl) (second : decl.spec.isAlias = true)
    (lead : inner.lead decls = .name name start) :
    rightHandSide package decls target inner = .aliased package name (target name) := by
  let table : NameTable := nameTable package decls [] inner.scope inner.spec.params
  have lead : inner.spec.type.lead table.decls table.scope table.params = .name name start := lead
  exact fixed_resolve_alias found second inner.spec.type lead ⟨[], []⟩

/-- A declaration whose right-hand side leads to a defined type stands for a type of unknown shape:
right-hand sides are resolved before shapes are known. -/
theorem rightHandSide_defined {name : String} {start : Nat} {decl inner : TypeDecl}
    (found : decls.lookup name = some decl) (first : decl.spec.isAlias = false)
    (lead : inner.lead decls = .name name start) :
    ∃ args, rightHandSide package decls target inner = .named ⟨package, name, args, .unknown⟩ := by
  let table : NameTable := nameTable package decls [] inner.scope inner.spec.params
  have lead : inner.spec.type.lead table.decls table.scope table.params = .name name start := lead
  exact fixed_resolve_defined found first inner.spec.type lead ⟨[], []⟩

/-- An alias whose right-hand side is another declared name, apart from arguments and
parentheses. -/
def IsAliasFor (decls : TypeDecls) (name other : String) : Prop :=
  ∃ decl start, decls.lookup name = some decl ∧ decl.spec.isAlias = true ∧
    decl.lead decls = .name other start

/-- The target of an alias that leads to a defined type has the zero value of a type of unknown
shape. -/
theorem zeroForm_target (targets : ∀ name decl, decls.lookup name = some decl →
      decl.spec.isAlias = true → target name = rightHandSide package decls target decl)
    {name base : String} {decl : TypeDecl} (chain : TransGen (IsAliasFor decls) name base)
    (found : decls.lookup base = some decl) (first : decl.spec.isAlias = false) :
    (target name).zeroForm = .allocated := by
  -- On the chain: the last alias is one for the defined type, any other one for an alias.
  induction chain using TransGen.head_induction_on with
  | single last =>
    obtain ⟨inner, start, declared, second, lead⟩ := last
    rw [targets _ inner declared second]
    obtain ⟨args, stands⟩ := rightHandSide_defined found first lead
    rw [stands]
    rfl
  | head step rest ih =>
    obtain ⟨inner, start, declared, second, lead⟩ := step
    obtain ⟨_, ⟨next, _, declared', second', _⟩, _⟩ := TransGen.head'_iff.mp rest
    rw [targets _ inner declared second, rightHandSide_alias declared' second' lead]
    exact ih

end Targets

section Parameters

/-- The types that a group of parameters declares, one for each parameter. -/
def ParamExpr.varTypes : ParamExpr → List TypeExpr
  | .mk names type _ variadic =>
    if variadic then [.slice type] else if names.isEmpty then [type] else names.map fun _ => type

/-- The types that a function is declared to take, one for each parameter. -/
def FuncDecl.paramTypes (decl : FuncDecl) : List TypeExpr :=
  decl.signature.params.flatMap ParamExpr.varTypes

/-- The type parameters that are in scope of the signature of a function. -/
def Function.typeParams (function : Function) (decl : FuncDecl) : List String :=
  match function.receiver with
  | none => decl.typeParams
  | some receiver => receiver.type.receiverParams

variable {table : NameTable} {good : TypeExpr → ResolvedType → Prop}

/-- What every expression gives for itself, parameters give for the types that they declare. -/
theorem resolveParams_gives (each : ∀ expr : TypeExpr, Gives (expr.resolve table) (good expr))
    (params : List ParamExpr) : Gives (resolveParams table params) fun vars =>
      List.Forall₂ (fun expr var => good expr var.type) (params.flatMap ParamExpr.varTypes) vars := by
  induction params with
  | nil =>
    rw [resolveParams]
    exact .pure .nil
  | cons param rest ih =>
    obtain ⟨names, type, start, variadic⟩ := param
    have own : Gives (type.resolve table) fun resolved =>
        good type resolved ∧ good (.slice type) (.slice resolved) := by
      intro before
      -- A slice of the type is resolved as the type is.
      have spread := each (.slice type) before
      rw [TypeExpr.resolve] at spread
      exact ⟨each type before, spread⟩
    rw [resolveParams]
    refine own.bind fun resolved fits => ih.bind fun vars others => .pure ?_
    -- The names of one group share its type; one that spreads has a slice of it.
    rw [List.flatMap_cons, ParamExpr.varTypes]
    refine List.rel_append ?_ others
    split
    · exact .cons fits.2 .nil
    · split
      · exact .cons fits.1 .nil
      · exact List.forall₂_map_left_iff.mpr (List.forall₂_map_right_iff.mpr
          (List.forall₂_same.mpr fun _ _ => fits.1))

/-- What every expression gives in the names of a file, the parameters of a function give for the
types that they are declared with. -/
theorem paramTypes_of_functionOf {table : TypeTable} {target : String → ResolvedType}
    {scope : FileScope} {decl : FuncDecl} {function : Function}
    {good : List String → TypeExpr → ResolvedType → Prop}
    (each : ∀ typeParams, ∀ expr : TypeExpr,
      Gives (expr.resolve ((table.names scope typeParams).fixed target)) (good typeParams expr))
    (stands : table.functionOf target scope decl = some function) :
    List.Forall₂ (fun expr param => good (function.typeParams decl) expr param.type)
      decl.paramTypes function.signature.params := by
  -- The signature is read with the type parameters of the function, or with those of its receiver.
  have signed : function.signature = ((table.names scope (function.typeParams decl)).fixed
      target).signatureOf decl.signature := by
    unfold TypeTable.functionOf at stands
    unfold Function.typeParams
    split at stands
    · cases stands
      rfl
    · obtain ⟨receiver, -, rfl⟩ := Option.map_eq_some_iff.mp stands
      rfl
  rw [signed, FuncDecl.paramTypes]
  cases decl.signature with
  | mk params results => exact resolveParams_gives (each _) params ⟨[], []⟩

end Parameters

section Packages

variable {metadata : Metadata} {files : List SourceFile}

/-- The function of a package that a declaration of a file stands for. -/
def functionIn (metadata : Metadata) (files : List SourceFile) (file : SourceFile)
    (decl : FuncDecl) : Option Function :=
  (alone (functionTable metadata files) (resolvedIn metadata files).2.aliases
    (FileScope.ofFile metadata.deps file) decl).1.map Prod.snd

/-- The functions of a package are those that the declarations in its files stand for. -/
theorem ofFiles_functions (metadata : Metadata) (files : List SourceFile) :
    (Package.ofFiles metadata files).functions =
      files.flatMap fun file => file.funcDecls.filterMap (functionIn metadata files file) := by
  rw [(ofFiles_isSettled metadata files).functions, functionsAlone, declaredFuncs,
    List.filterMap_flatMap]
  refine List.flatMap_congr fun file _ => ?_
  rw [scopedFuncs, List.filterMap_map]
  rfl

/-- A parameter of a function of a package that is declared with a name which the package declares,
apart from arguments and parentheses. -/
def DeclaredWith (metadata : Metadata) (files : List SourceFile) (name : String) (param : Var) :
    Prop :=
  ∃ file ∈ files, ∃ decl ∈ file.funcDecls, ∃ function,
    functionIn metadata files file decl = some function ∧
      ∃ expr start, (expr, param) ∈ decl.paramTypes.zip function.signature.params ∧
        expr.lead (typesIn metadata.deps files) (FileScope.ofFile metadata.deps file)
          (function.typeParams decl) = .name name start

/-- What the parameters in a file are declared to lead to, each with the form of its zero value. -/
def paramZeros (metadata : Metadata) (files : List SourceFile) (file : SourceFile) :
    List (ShapeLead × ZeroForm) :=
  file.funcDecls.flatMap fun decl =>
    (functionIn metadata files file decl).toList.flatMap fun function =>
      (decl.paramTypes.zip function.signature.params).map fun (expr, param) =>
        (expr.lead (typesIn metadata.deps files) (FileScope.ofFile metadata.deps file)
          (function.typeParams decl), param.type.zeroForm)

/-- What is listed with a declared name is a parameter that is declared with it. -/
theorem declaredWith_of_paramZeros {file : SourceFile} (among : file ∈ files) {name : String}
    {start : Nat} {form : ZeroForm}
    (listed : (.name name start, form) ∈ paramZeros metadata files file) :
    ∃ param, DeclaredWith metadata files name param ∧ param.type.zeroForm = form := by
  obtain ⟨decl, declared, here⟩ := List.mem_flatMap.mp listed
  obtain ⟨function, stands, member⟩ := List.mem_flatMap.mp here
  obtain ⟨⟨expr, param⟩, paired, same⟩ := List.mem_map.mp member
  obtain ⟨lead, zero⟩ := Prod.mk.inj same
  exact ⟨param, ⟨file, among, decl, declared, function, Option.mem_toList.mp stands, expr, start,
    paired, lead⟩, zero⟩

/-- The declared types and functions of a package as they are resolved with some targets. -/
structure ReadsWith (metadata : Metadata) (files : List SourceFile)
    (target : String → ResolvedType) : Prop where
  targets : ∀ name decl, (typesIn metadata.deps files).lookup name = some decl →
    decl.spec.isAlias = true →
      target name = rightHandSide metadata.ref (typesIn metadata.deps files) target decl
  definitions : (resolvedIn metadata files).1 =
    rightHandSides metadata.ref (typesIn metadata.deps files) target
  functions : ∀ file ∈ files, ∀ decl ∈ file.funcDecls, functionIn metadata files file decl =
    (functionTable metadata files).functionOf target (FileScope.ofFile metadata.deps file) decl

/-- If no loop is reported, declarations are read with the targets that aliases are known by. -/
theorem readsWith_of_quiet
    (quiet : (Package.ofFiles metadata files).errors.filter Diagnostic.isLoop = []) :
    ∃ target, ReadsWith metadata files target := by
  have ordered := inKeyOrder_collect metadata.deps files
  obtain ⟨defined, single⟩ := (ofFiles_isSettled metadata files).quiet quiet
  obtain ⟨read, definitions⟩ := definitionsOf_reads ordered defined
  refine ⟨knownTarget (resolvedIn metadata files).2.aliases, fun name decl found second => ?_,
    definitions, fun file among decl declared => ?_⟩
  · exact read name _ decl (definitionsOf_known ordered _ found second) found
  · -- Every alias is met by now, so the declaration by itself is the function it stands for.
    have met : AllMet (functionTable metadata files).decls (resolvedIn metadata files).2.aliases :=
      allMet_resolveDefinitions metadata.ref ordered ⟨[], _⟩
    refine alone_eq met (agrees_knownTarget _) _ _ ?_
    rw [errorsAlone, List.filter_flatMap] at single
    refine List.flatMap_eq_nil_iff.mp single (FileScope.ofFile metadata.deps file, decl) ?_
    exact List.mem_flatMap.mpr ⟨file, among, List.mem_map.mpr ⟨decl, declared, rfl⟩⟩

/-- In the functions of a package, each expression that leads to a name stands for a type with some
property, if the targets of aliases are fixed. -/
def StandsAs (metadata : Metadata) (files : List SourceFile) (target : String → ResolvedType)
    (name : String) (good : ResolvedType → Prop) : Prop :=
  ∀ scope params start, ∀ expr : TypeExpr,
    expr.lead (typesIn metadata.deps files) scope params = .name name start →
      Gives (expr.resolve (((functionTable metadata files).names scope params).fixed target)) good

section Names

variable {target : String → ResolvedType} {name : String} {decl : TypeDecl}

/-- What leads to an alias stands for an alias type. -/
theorem standsAs_alias (found : (typesIn metadata.deps files).lookup name = some decl)
    (second : decl.spec.isAlias = true) : StandsAs metadata files target name fun type =>
      type = .aliased metadata.ref name (target name) := by
  intro scope params start expr lead
  let names : NameTable := (functionTable metadata files).names scope params
  have found : names.decls.lookup name = some decl := found
  exact fixed_resolve_alias found second expr lead

/-- What leads to a defined type stands for that type, with the shape that is recorded. -/
theorem standsAs_defined (found : (typesIn metadata.deps files).lookup name = some decl)
    (first : decl.spec.isAlias = false) : StandsAs metadata files target name fun type =>
      ∃ args, type = .named ⟨metadata.ref, name, args,
        ((recordedShapes metadata files).lookup name).getD .unknown⟩ := by
  intro scope params start expr lead
  let names : NameTable := (functionTable metadata files).names scope params
  have found : names.decls.lookup name = some decl := found
  exact fixed_resolve_defined found first expr lead

end Names

/-- A parameter that is declared with a name is of a type that the name stands for. -/
theorem ReadsWith.declaredWith {target : String → ResolvedType}
    (reads : ReadsWith metadata files target) {name : String} {good : ResolvedType → Prop}
    (stands : StandsAs metadata files target name good) {param : Var}
    (declared : DeclaredWith metadata files name param) : good param.type := by
  obtain ⟨file, among, decl, member, function, made, expr, start, paired, lead⟩ := declared
  rw [reads.functions file among decl member] at made
  -- Each parameter has what its own expression gives, so this one has what leads to the name.
  have gives : ∀ typeParams, ∀ expr : TypeExpr,
      Gives (expr.resolve (((functionTable metadata files).names
        (FileScope.ofFile metadata.deps file) typeParams).fixed target)) fun type =>
          ∀ start, expr.lead (typesIn metadata.deps files)
            (FileScope.ofFile metadata.deps file) typeParams = .name name start → good type :=
    fun typeParams expr before start lead => stands _ typeParams start expr lead before
  exact (List.forall₂_iff_zip.mp (paramTypes_of_functionOf gives made)).2 paired start lead

/-- A parameter that is declared with a defined type has the zero value that the type's recorded
shape allows, and one that is declared with an alias leading there always has one that is
allocated; so the two are of one form exactly if the recorded shape allows no other. -/
theorem zeroForms_agree_iff
    (quiet : (Package.ofFiles metadata files).errors.filter Diagnostic.isLoop = [])
    {name base : String} {decl : TypeDecl}
    (chain : TransGen (IsAliasFor (typesIn metadata.deps files)) name base)
    (found : (typesIn metadata.deps files).lookup base = some decl)
    (first : decl.spec.isAlias = false) :
    ∃ shape, (recordedShapes metadata files).lookup base = some shape ∧
      (∀ param, DeclaredWith metadata files base param → param.type.zeroForm = shape.zeroForm) ∧
      (∀ param, DeclaredWith metadata files name param → param.type.zeroForm = .allocated) ∧
      ∀ param other, DeclaredWith metadata files base param →
        DeclaredWith metadata files name other →
          (param.type.zeroForm = other.type.zeroForm ↔ shape.zeroForm = .allocated) := by
  obtain ⟨target, reads⟩ := readsWith_of_quiet quiet
  -- Only an alias leads on, so the name that the chain begins with is one.
  obtain ⟨_, ⟨own, _, declared, second, _⟩, _⟩ := TransGen.head'_iff.mp chain
  have known : (resolvedIn metadata files).1.lookup base = some (rightHandSide metadata.ref
      (typesIn metadata.deps files) target decl) := by
    rw [reads.definitions, rightHandSides, lookup_map fun _ decl => rightHandSide metadata.ref
      (typesIn metadata.deps files) target decl, found]
    rfl
  have recorded := lookup_recordedShapes known
  generalize shapeWithin metadata.path _ _ _ _ = shape at recorded
  -- Signatures are resolved when shapes are recorded, so they name the type with its shape.
  have defined : ∀ param, DeclaredWith metadata files base param →
      param.type.zeroForm = shape.zeroForm := by
    intro param here
    obtain ⟨args, stands⟩ := reads.declaredWith (standsAs_defined found first) here
    rw [stands, recorded]
    rfl
  -- The target of the alias was resolved before that, and is kept as it was.
  have led : ∀ param, DeclaredWith metadata files name param →
      param.type.zeroForm = .allocated := by
    intro param here
    rw [reads.declaredWith (standsAs_alias declared second) here]
    exact zeroForm_target reads.targets chain found first
  refine ⟨shape, recorded, defined, led, fun param other here there => ?_⟩
  rw [defined param here, led other there]

/-- A file with a parameter of a struct type, and one of an alias for it. -/
def aliasedStruct : SourceFile :=
  .ofText ⟨"/ws/p/p.go"⟩
    "package p\n\ntype N struct\x7b\x7d\n\ntype A = N\n\nfunc F(_ A, _ N) \x7b\x7d\n"

/-- Both parameters are there, with zero values of different forms. -/
theorem paramZeros_aliasedStruct : paramZeros metadataOfTwo [aliasedStruct] aliasedStruct =
    [(.name "A" 49, .allocated), (.name "N" 54, .composite)] := by
  decide +kernel

theorem isAliasFor_aliasedStruct :
    IsAliasFor (typesIn metadataOfTwo.deps [aliasedStruct]) "A" "N" := by
  have told : ((typesIn metadataOfTwo.deps [aliasedStruct]).lookup "A").map (fun decl =>
      (decl.spec.isAlias, decl.lead (typesIn metadataOfTwo.deps [aliasedStruct]))) =
        some (true, .name "N" 37) := by
    decide +kernel
  obtain ⟨decl, found, same⟩ := Option.map_eq_some_iff.mp told
  obtain ⟨second, lead⟩ := Prod.mk.inj same
  exact ⟨decl, 37, found, second, lead⟩

/-- A parameter of a struct type and one of an alias for it have the zero values that are said to
be theirs. -/
theorem zeroForms_agree_iff_aliasedStruct :
    (Package.ofFiles metadataOfTwo [aliasedStruct]).errors = [] ∧
      ∃ param other, DeclaredWith metadataOfTwo [aliasedStruct] "N" param ∧
        DeclaredWith metadataOfTwo [aliasedStruct] "A" other ∧
          param.type.zeroForm = Shape.struct.zeroForm ∧ other.type.zeroForm = .allocated := by
  have errors : (Package.ofFiles metadataOfTwo [aliasedStruct]).errors = [] := by decide +kernel
  have told : ((typesIn metadataOfTwo.deps [aliasedStruct]).lookup "N").map (fun decl =>
      decl.spec.isAlias) = some false := by
    decide +kernel
  have recorded : (recordedShapes metadataOfTwo [aliasedStruct]).lookup "N" = some .struct := by
    decide +kernel
  obtain ⟨decl, found, first⟩ := Option.map_eq_some_iff.mp told
  obtain ⟨shape, held, defined, led, -⟩ := zeroForms_agree_iff (by rw [errors]; rfl)
    (.single isAliasFor_aliasedStruct) found first
  cases held.symm.trans recorded
  obtain ⟨param, here, -⟩ := declaredWith_of_paramZeros (List.mem_singleton_self _)
    (paramZeros_aliasedStruct ▸ List.mem_cons_of_mem _ (List.mem_singleton_self _))
  obtain ⟨other, there, -⟩ := declaredWith_of_paramZeros (List.mem_singleton_self _)
    (paramZeros_aliasedStruct ▸ List.mem_cons_self)
  exact ⟨errors, param, other, here, there, defined param here, led other there⟩

/-- The zero values of a parameter of a struct type and of one of an alias for it differ in form. -/
theorem zeroForms_differ_aliasedStruct :
    (Package.ofFiles metadataOfTwo [aliasedStruct]).errors = [] ∧
      IsAliasFor (typesIn metadataOfTwo.deps [aliasedStruct]) "A" "N" ∧
      ¬ ∀ param other, DeclaredWith metadataOfTwo [aliasedStruct] "N" param →
        DeclaredWith metadataOfTwo [aliasedStruct] "A" other →
          param.type.zeroForm = other.type.zeroForm := by
  refine ⟨by decide +kernel, isAliasFor_aliasedStruct, fun agree => ?_⟩
  obtain ⟨param, here, composite⟩ := declaredWith_of_paramZeros (List.mem_singleton_self _)
    (paramZeros_aliasedStruct ▸ List.mem_cons_of_mem _ (List.mem_singleton_self _))
  obtain ⟨other, there, allocated⟩ := declaredWith_of_paramZeros (List.mem_singleton_self _)
    (paramZeros_aliasedStruct ▸ List.mem_cons_self)
  have same := agree param other here there
  rw [composite, allocated] at same
  cases same

end Packages

end Scaffold.Go
