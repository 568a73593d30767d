import Scaffold.Go.Function
import Scaffold.Go.ShapeTable

/-! Packages with the signatures of their functions resolved. -/

namespace Scaffold.Go

/-- What a package is called, and what the packages it imports are known to declare. -/
structure Metadata where
  id : String
  path : String
  name : String
  /-- Names of imported packages by import path. -/
  deps : List (String × String)
  deriving DecidableEq, Repr

/-- The identity of a package that belongs to no module. -/
def looseId : String :=
  "command-line-arguments"

/-- Whether an identity is that of files outside every module. -/
def isLooseId (id : String) : Bool :=
  id == looseId || finishesWith id ("/" ++ looseId)

/-- The package as others refer to it. -/
def Metadata.ref (metadata : Metadata) : PackageRef :=
  ⟨metadata.path, metadata.name⟩

/-- A plain name as a type argument, which a receiver declares as a type parameter. -/
def TypeExpr.plainName? : TypeExpr → Option String
  | .name text _ => some text
  | _ => none

/-- The base type of a receiver: its name, where that stands, and its type parameters. -/
def TypeExpr.receiverBase? (type : TypeExpr) : Option (String × Nat × List String) :=
  match type.core with
  | .name text start => some (text, start, [])
  | .generic (.name text start) args => some (text, start, args.filterMap TypeExpr.plainName?)
  | .generic (.qualified package start selected) _ =>
    some (package ++ "." ++ selected, start, [])
  | _ => none

/-- The type parameters that a receiver brings into the scope of its method. -/
def ResolvedType.receiverParams (type : ResolvedType) : List String :=
  match type.withoutPointer with
  | .named found => found.args.filterMap fun
    | .param name => some name
    | _ => none
  | _ => []

/-- The declared types of a package with the shapes behind them. -/
structure TypeTable where
  package : PackageRef
  decls : TypeDecls
  shapes : List (String × Shape)

/-- The names in sight of a file, with some type parameters. -/
def TypeTable.names (table : TypeTable) (scope : FileScope) (params : List String) : NameTable :=
  nameTable table.package table.decls table.shapes scope params

/-- A method's receiver and the name of its base type, which the package has to declare. -/
def resolveReceiver (table : TypeTable) (scope : FileScope) (params : List ParamExpr) :
    Resolving (Option (Var × String)) := do
  match params.find? fun param => !param.variadic with
  | none => return none
  | some param =>
    match param.type.receiverBase? with
    | none =>
      reportError scope param.start .invalidReceiver
      return none
    | some (base, start, typeParams) =>
      if (table.decls.lookup base).isNone then
        reportError scope start (.foreignReceiver base)
        return none
      let type ← param.type.resolve (table.names scope typeParams)
      return some (⟨param.names.headD "", type⟩, base)

/-- A function with its signature resolved. -/
def resolveFunction (table : TypeTable) (scope : FileScope) (decl : FuncDecl)
    (receiver : Option Var) (typeParams : List String) : Resolving Function := do
  let signature ← decl.signature.resolve (table.names scope typeParams)
  return ⟨decl.name, table.package, receiver, signature, scope.path, decl.start⟩

/-- Whether a function may be declared any number of times. -/
def isRepeatable (name : String) : Bool :=
  name == "init" || name == "_"

/-- Functions in source order; what was declared before is known by base type and name. -/
def resolveFunctions (table : TypeTable) :
    List (Option String × String) → List (FileScope × FuncDecl) → Resolving (List Function)
  | _, [] => return []
  | earlier, (scope, decl) :: rest => do
    match decl.receiver with
    | none =>
      let taken := earlier.contains (none, decl.name) || (table.decls.lookup decl.name).isSome
      if taken && !isRepeatable decl.name then
        reportError scope decl.nameStart (.redeclared decl.name)
      let function ← resolveFunction table scope decl none decl.typeParams
      return function :: (← resolveFunctions table ((none, decl.name) :: earlier) rest)
    | some params =>
      match ← resolveReceiver table scope params with
      | none => resolveFunctions table earlier rest
      | some (receiver, base) =>
        if earlier.contains (some base, decl.name) then
          reportError scope decl.nameStart (.repeatedMethod base decl.name)
        let function ← resolveFunction table scope decl (some receiver)
          receiver.type.receiverParams
        return function :: (← resolveFunctions table ((some base, decl.name) :: earlier) rest)

/-- A package: its files, its functions, and what is wrong with it. -/
structure Package where
  metadata : Metadata
  files : List SourceFile
  functions : List Function
  errors : List Diagnostic

namespace Package

/-- The package that files make up. -/
def ofFiles (metadata : Metadata) (files : List SourceFile) : Package :=
  let sources := files.map fun file => (FileScope.ofFile metadata.deps file, file)
  let (decls, repeats) := TypeDecls.collect sources
  -- Shapes are known only once every right-hand side has been resolved.
  let work : Resolving (List Function) := do
    let definitions ← resolveDefinitions metadata.ref decls decls
    let table : TypeTable := ⟨metadata.ref, decls, shapeTable metadata.path definitions⟩
    resolveFunctions table [] (sources.flatMap fun (scope, file) =>
      file.funcDecls.map fun decl => (scope, decl))
  let (functions, findings) := work.run ⟨[], repeats⟩
  ⟨metadata, files, functions, findings.errors⟩

/-- The package as others refer to it. -/
def ref (package : Package) : PackageRef :=
  package.metadata.ref

/-- The name the package declares. -/
def name (package : Package) : String :=
  package.metadata.name

/-- Whether the package belongs to no module. -/
def isLoose (package : Package) : Bool :=
  isLooseId package.metadata.id

/-- Whether some file could not be read to its end. -/
def isBroken (package : Package) : Bool :=
  package.files.any SourceFile.broken

/-- The file at a path. -/
def file? (package : Package) (path : FilePath) : Option SourceFile :=
  package.files.find? fun file => file.path.same path

/-- The function declared at an offset of a file. -/
def functionAt? (package : Package) (path : FilePath) (start : Nat) : Option Function :=
  package.functions.find? fun function => function.file.same path && function.start == start

/-- The functions without a receiver, by name. -/
def plainFunctions (package : Package) : List Function :=
  Function.byName (package.functions.filter fun function => !function.isMethod)

end Package

end Scaffold.Go
