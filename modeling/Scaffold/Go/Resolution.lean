import Scaffold.Go.KnownShape
import Scaffold.Go.Scope

/-! Type expressions turned into types by looking up every name in them. -/

namespace Scaffold.Go

/-- What has been found so far: targets of aliases, none for one in progress, and the errors. -/
structure Findings where
  aliases : List (String × Option ResolvedType)
  errors : List Diagnostic

/-- A step that adds to the findings. -/
abbrev Resolving := StateM Findings

/-- Notes a type error at an offset of a file. -/
def reportError (scope : FileScope) (offset : Nat) (error : TypeError) : Resolving Unit :=
  modify fun findings =>
    { findings with errors := findings.errors ++ [scope.diagnostic offset error] }

/-- What the names in a type expression are looked up in. -/
structure NameTable where
  package : PackageRef
  decls : TypeDecls
  /-- The shapes behind declared types, as far as they are known. -/
  shapes : List (String × Shape)
  scope : FileScope
  /-- The type parameters in scope. -/
  params : List String
  /-- The target of an alias of the package, none while it is being resolved. -/
  aliasTarget : String → Resolving (Option ResolvedType)

/-- The type that a predeclared name stands for. -/
def predeclared? (name : String) : Option ResolvedType :=
  if name == "error" then some .error
  else if name == "any" then some .any
  else if isBasicName name then some (.basic name)
  else none

/-- A defined type of another package. -/
def foreignType (package : PackageRef) (name : String) : ResolvedType :=
  .named ⟨package, name, [], knownShape package.path name⟩

/-- A type with arguments; only defined types take them. -/
def ResolvedType.withArgs (base : ResolvedType) (args : List ResolvedType) : ResolvedType :=
  match base with
  | .named type => .named { type with args := args }
  | other => other

namespace NameTable

/-- The type of a name that the package declares. -/
def declared (table : NameTable) (name : String) (start : Nat) (decl : TypeDecl) :
    Resolving ResolvedType := do
  if decl.spec.isAlias then
    match ← table.aliasTarget name with
    | some target => return .aliased table.package name target
    | none =>
      reportError table.scope start (.recursiveAlias name)
      return .invalid name
  else
    return .named ⟨table.package, name, [], (table.shapes.lookup name).getD .unknown⟩

/-- The type of a name that nothing in sight declares. -/
def undeclared (table : NameTable) (name : String) (start : Nat) : Resolving ResolvedType := do
  match table.scope.dots with
  | [] =>
    reportError table.scope start (.undefined name)
    return .invalid name
  | [package] => return foreignType package name
  -- Which of several packages declares the name cannot be told.
  | _ => return .invalid name

/-- The type of a plain name: a parameter, a declared type, a predeclared or an imported one. -/
def resolveName (table : NameTable) (name : String) (start : Nat) : Resolving ResolvedType :=
  if table.params.contains name then pure (.param name)
  else match table.decls.lookup name with
    | some decl => table.declared name start decl
    | none =>
      match predeclared? name with
      | some type => pure type
      | none => table.undeclared name start

/-- The type of a name behind the name of a package. -/
def resolveQualified (table : NameTable) (package : String) (start : Nat) (name : String) :
    Resolving ResolvedType := do
  match table.scope.named.lookup package with
  | some found => return foreignType found name
  | none =>
    reportError table.scope start (.undefined package)
    return .invalid (package ++ "." ++ name)

end NameTable

mutual

/-- The type that an expression stands for. -/
def TypeExpr.resolve (table : NameTable) : TypeExpr → Resolving ResolvedType
  | .name text start => table.resolveName text start
  | .qualified package start name => table.resolveQualified package start name
  | .generic base args => do
    let resolved ← base.resolve table
    return resolved.withArgs (← resolveTypes table args)
  | .pointer elem => do return .pointer (← elem.resolve table)
  | .slice elem => do return .slice (← elem.resolve table)
  | .array length elem => do return .array length (← elem.resolve table)
  | .map key value => do
    let resolved ← key.resolve table
    return .map resolved (← value.resolve table)
  | .chan dir elem => do return .chan dir (← elem.resolve table)
  | .func signature => do return .func (← signature.resolve table)
  | .struct fields => do return .struct (← resolveFields table fields)
  | .interface elems => do return .interface (← resolveElems table elems)
  | .paren inner => inner.resolve table
  | .comment text start => do
    reportError table.scope start .strayComment
    return .invalid text
  | .approximate text => return .invalid text

/-- The types that expressions stand for, from left to right. -/
def resolveTypes (table : NameTable) : List TypeExpr → Resolving (List ResolvedType)
  | [] => return []
  | first :: rest => do
    let type ← first.resolve table
    return type :: (← resolveTypes table rest)

/-- A signature with its types resolved; one parameter that spreads makes it variadic. -/
def SignatureExpr.resolve (table : NameTable) : SignatureExpr → Resolving Signature
  | .mk params results => do
    let taken ← resolveParams table params
    let given ← resolveParams table results
    return ⟨taken, given, params.any ParamExpr.variadic⟩

/-- Parameters with their types resolved, each name with the type it shares. -/
def resolveParams (table : NameTable) : List ParamExpr → Resolving (List Var)
  | [] => return []
  | .mk names type _ variadic :: rest => do
    let resolved ← type.resolve table
    let vars := if variadic then [⟨names.headD "", .slice resolved⟩]
      else if names.isEmpty then [⟨"", resolved⟩]
      else names.map fun name => ⟨name, resolved⟩
    return vars ++ (← resolveParams table rest)

/-- Fields with their types resolved, each name with the type it shares; tags are left out. -/
def resolveFields (table : NameTable) : List FieldExpr → Resolving (List StructField)
  | [] => return []
  | .named names type _ :: rest => do
    let resolved ← type.resolve table
    return (names.map fun name => ⟨some name, resolved⟩) ++ (← resolveFields table rest)
  | .embedded pointer type _ :: rest => do
    let resolved ← type.resolve table
    let held := if pointer then .pointer resolved else resolved
    return ⟨none, held⟩ :: (← resolveFields table rest)

/-- Interface elements with their types resolved; a union of types is left out. -/
def resolveElems (table : NameTable) : List ElemExpr → Resolving (List InterfaceElem)
  | [] => return []
  | .method name signature :: rest => do
    let resolved ← signature.resolve table
    return .method name resolved :: (← resolveElems table rest)
  | .embedded type :: rest => do
    let resolved ← type.resolve table
    return .embedded resolved :: (← resolveElems table rest)
  | .union _ :: rest => resolveElems table rest

end

/-- The target of an alias, resolved once, with at most `depth` aliases inside one another. -/
def aliasTargetWithin (package : PackageRef) (decls : TypeDecls) (shapes : List (String × Shape)) :
    Nat → String → Resolving (Option ResolvedType)
  | 0, _ => return none
  | depth + 1, name => do
    match (← get).aliases.lookup name, decls.lookup name with
    | some known, _ => return known
    | none, none => return none
    | none, some decl =>
      -- An alias that is met again before its target is known leads back to itself.
      modify fun findings => { findings with aliases := insertKeyed name none findings.aliases }
      let target ← decl.spec.type.resolve
        ⟨package, decls, shapes, decl.scope, decl.spec.params,
          aliasTargetWithin package decls shapes depth⟩
      modify fun findings =>
        { findings with aliases := insertKeyed name (some target) findings.aliases }
      return some target

/-- The names in sight of a file of the package, with some type parameters. -/
def nameTable (package : PackageRef) (decls : TypeDecls) (shapes : List (String × Shape))
    (scope : FileScope) (params : List String) : NameTable :=
  -- Aliases nest no deeper than there are declared types.
  ⟨package, decls, shapes, scope, params,
    aliasTargetWithin package decls shapes (decls.length + 1)⟩

end Scaffold.Go
