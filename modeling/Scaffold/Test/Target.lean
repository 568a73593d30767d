import Scaffold.Failure
import Scaffold.Go.Function

/-! The tested function: what its test is called, and from where it can be reached. -/

namespace Scaffold

open Go

/-- The declared name of a method's receiver type. -/
def receiverTypeName (method : Function) : Except Failure String :=
  match method.receiverTypeName? with
  | some name => .ok name
  | none => .error (.namelessReceiver method.name)

/-- Checks that a test outside the package can call the function. -/
def checkVisibility (function : Function) (package : String) : Except Failure Unit :=
  if !function.isExported then .error (.unexportedFunction function.name package)
  else if function.isMethod then do
    let receiver ← receiverTypeName function
    if isExported receiver then return ()
    throw (.unexportedReceiver receiver function.name)
  else .ok ()

/-- The name of the test, in which an underscore leads an unexported name. -/
def testName (function : Function) : Except Failure String :=
  if function.isMethod then do
    let receiver ← receiverTypeName function
    let lead := if isExported receiver then "Test" else "Test_"
    return lead ++ receiver ++ "_" ++ function.name
  else
    let lead := if function.isExported then "Test" else "Test_"
    .ok (lead ++ function.name)

end Scaffold
