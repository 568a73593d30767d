import Scaffold.FilePath
import Scaffold.Go.ResolvedType
import Scaffold.Order
import Scaffold.Unicode.Case

/-! Functions and methods with their signatures resolved. -/

namespace Scaffold.Go

/-- Whether an identifier can be used outside its package. -/
def isExported (name : String) : Bool :=
  (name.toList.head?.map Unicode.isUppercase).getD false

/-- A function, or a method if it has a receiver, and where it is declared. -/
structure Function where
  name : String
  package : PackageRef
  receiver : Option Var
  signature : Signature
  file : FilePath
  start : Nat

namespace Function

/-- Whether the name can be used outside the package. -/
def isExported (function : Function) : Bool :=
  Go.isExported function.name

/-- Whether the function has a receiver. -/
def isMethod (function : Function) : Bool :=
  function.receiver.isSome

/-- The type of the receiver without the one pointer it may be, aliases kept. -/
def receiverBase? (function : Function) : Option ResolvedType :=
  function.receiver.map fun receiver => receiver.type.withoutPointer

/-- The name the receiver type was declared with. -/
def receiverTypeName? (function : Function) : Option String :=
  function.receiverBase?.bind ResolvedType.declaredName?

/-- Functions by name, those of one name in the order they were given. -/
def byName (functions : List Function) : List Function :=
  sortOrdered (fun first second => decide (first.name ≤ second.name)) functions

end Function

end Scaffold.Go
