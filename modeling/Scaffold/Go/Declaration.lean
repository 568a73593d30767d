import Scaffold.Go.TypeExpr

/-! What a Go file declares at top level. -/

namespace Scaffold.Go

/-- The clause that names the package of a file. -/
structure PackageClause where
  name : String
  start : Nat
  stop : Nat
  row : Nat
  deriving DecidableEq, Repr, Inhabited

/-- One import: a path, and a name, an underscore or a dot if one is written before it. -/
structure ImportSpec where
  name : Option String
  path : String
  start : Nat
  stop : Nat
  deriving DecidableEq, Repr, Inhabited

/-- Whether the names of the imported package are used without a qualifier. -/
def ImportSpec.isDot (spec : ImportSpec) : Bool :=
  spec.name == some "."

/-- Whether the import binds no name at all. -/
def ImportSpec.isBlank (spec : ImportSpec) : Bool :=
  spec.name == some "_"

/-- An import declaration; one with parentheses knows where they close. -/
structure ImportDecl where
  start : Nat
  stop : Nat
  specs : List ImportSpec
  close : Option Nat
  deriving DecidableEq, Repr, Inhabited

/-- A declared type or alias with the names of its type parameters. -/
structure TypeSpec where
  name : String
  start : Nat
  isAlias : Bool
  params : List String
  type : TypeExpr
  deriving Inhabited

/-- A declared function, or a method if it has a receiver. -/
structure FuncDecl where
  name : String
  nameStart : Nat
  start : Nat
  stop : Nat
  row : Nat
  receiver : Option (List ParamExpr)
  typeParams : List String
  signature : SignatureExpr
  deriving Inhabited

/-- One item at the top level of a file. -/
inductive Item
  | package (clause : PackageClause)
  | imports (decl : ImportDecl)
  | types (specs : List TypeSpec)
  | func (decl : FuncDecl)
  | other

end Scaffold.Go
