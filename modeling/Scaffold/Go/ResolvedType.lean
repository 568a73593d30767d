import Scaffold.Go.TypeExpr

/-! Types as they are after every name has been looked up. -/

namespace Scaffold.Go

/-- A package: the path it is imported by, and the name it declares. -/
structure PackageRef where
  path : String
  name : String
  deriving DecidableEq, Repr, Inhabited

/-- The standard package for tests. -/
def PackageRef.testing : PackageRef :=
  ⟨"testing", "testing"⟩

/-- The standard package for contexts. -/
def PackageRef.context : PackageRef :=
  ⟨"context", "context"⟩

/-- What lies behind a defined type, as far as its zero value depends on it. -/
inductive Shape
  | struct
  | array
  | basic (name : String)
  | nillable
  | unknown
  deriving DecidableEq, Repr, Inhabited

mutual

/-- A type with every name looked up. -/
inductive ResolvedType
  | basic (name : String)
  | error
  | any
  | named (type : NamedType)
  | aliased (package : PackageRef) (name : String) (target : ResolvedType)
  | param (name : String)
  | pointer (elem : ResolvedType)
  | slice (elem : ResolvedType)
  | array (length : String) (elem : ResolvedType)
  | map (key value : ResolvedType)
  | chan (dir : ChanDir) (elem : ResolvedType)
  | func (signature : Signature)
  | struct (fields : List StructField)
  | interface (elems : List InterfaceElem)
  /-- A type expression with a name that stands for no type. -/
  | invalid (text : String)

/-- A defined type with its type arguments. -/
structure NamedType where
  package : PackageRef
  name : String
  args : List ResolvedType
  shape : Shape

/-- A parameter, result or receiver; an unnamed one has the empty name. -/
structure Var where
  name : String
  type : ResolvedType

/-- The parameters and results of a function; a variadic one ends in a slice. -/
structure Signature where
  params : List Var
  results : List Var
  variadic : Bool

/-- A field of a struct; an embedded one has no name. -/
structure StructField where
  name : Option String
  type : ResolvedType

/-- A method or an embedded type of an interface. -/
inductive InterfaceElem
  | method (name : String) (signature : Signature)
  | embedded (type : ResolvedType)

end

instance : Inhabited ResolvedType := ⟨.any⟩

instance : Inhabited NamedType := ⟨⟨⟨"", ""⟩, "", [], .unknown⟩⟩

instance : Inhabited Signature := ⟨⟨[], [], false⟩⟩

instance : Inhabited Var := ⟨⟨"", .any⟩⟩

/-- The names of the predeclared basic types. -/
def basicNames : List String :=
  ["bool", "string", "int", "int8", "int16", "int32", "int64", "uint", "uint8", "uint16",
    "uint32", "uint64", "uintptr", "float32", "float64", "complex64", "complex128", "byte", "rune"]

/-- Whether a name is that of a predeclared basic type. -/
def isBasicName (name : String) : Bool :=
  basicNames.contains name

namespace ResolvedType

/-- The type that a chain of aliases leads to. -/
def unalias : ResolvedType → ResolvedType
  | .aliased _ _ target => target.unalias
  | type => type

/-- The defined type of a receiver: the type itself or what it points to, behind aliases. -/
def receiverNamed? (type : ResolvedType) : Option NamedType :=
  -- Only one pointer is looked through.
  let base := match type.unalias with
    | .pointer elem => elem.unalias
    | other => other
  match base with
  | .named found => some found
  | _ => none

/-- Whether the type is the standard context. -/
def isContext : ResolvedType → Bool
  | .named type => type.package.path == "context" && type.name == "Context"
  | _ => false

/-- Whether the type is the predeclared error type, behind any aliases. -/
def isError (type : ResolvedType) : Bool :=
  match type.unalias with
  | .error => true
  | _ => false

/-- The name a defined type or an alias was declared with. -/
def declaredName? : ResolvedType → Option String
  | .named type => some type.name
  | .aliased _ name _ => some name
  | _ => none

/-- The type without the one pointer it may be. -/
def withoutPointer : ResolvedType → ResolvedType
  | .pointer elem => elem
  | type => type

end ResolvedType

end Scaffold.Go
