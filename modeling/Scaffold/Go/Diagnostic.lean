import Scaffold.FilePath
import Scaffold.Text.Position

/-! What is wrong with the declarations of a package, and where. -/

namespace Scaffold.Go

/-- Why a declaration or a type expression is not accepted. -/
inductive TypeError
  | undefined (name : String)
  | redeclared (name : String)
  | recursiveAlias (name : String)
  /-- A comment stands where a type is looked for. -/
  | strayComment
  | repeatedMethod (base name : String)
  | invalidReceiver
  | foreignReceiver (base : String)
  deriving DecidableEq, Repr

/-- The wording of a type error. -/
def TypeError.message : TypeError → String
  | .undefined name => "undefined: " ++ name
  | .redeclared name => name ++ " redeclared in this block"
  | .recursiveAlias name => "invalid recursive type alias " ++ name
  | .strayComment => "unsupported type expression comment"
  | .repeatedMethod base name => "method " ++ base ++ "." ++ name ++ " already declared"
  | .invalidReceiver => "invalid receiver type"
  | .foreignReceiver base => "cannot define new methods on non-local type " ++ base

/-- A type error at a place in a file. -/
structure Diagnostic where
  file : FilePath
  position : Position
  error : TypeError
  deriving DecidableEq, Repr

/-- The diagnostic on one line, its place counted from one. -/
def Diagnostic.text (diagnostic : Diagnostic) : String :=
  diagnostic.file.text ++ ":" ++ toString (diagnostic.position.line + 1) ++ ":"
    ++ toString (diagnostic.position.column + 1) ++ ": " ++ diagnostic.error.message

end Scaffold.Go
