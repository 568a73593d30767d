import Scaffold.Go.Function
import Scaffold.Go.Identity

/-! Functions that make a value of a receiver type, and which of them a test calls. -/

namespace Scaffold

open Go

/-- Whether some type argument is a type parameter. -/
def hasTypeParams (type : NamedType) : Bool :=
  type.args.any fun
    | .param _ => true
    | _ => false

/-- Whether a function makes values of a type and can be called by the test. -/
def isConstructorFor (function : Function) (wanted : NamedType) (external : Bool) : Bool :=
  if function.isMethod || (external && !function.isExported) then false
  else
    -- It gives the value or a pointer to it, perhaps with an error beside it.
    let makes (result : Var) : Bool :=
      match result.type.receiverNamed? with
      | none => false
      | some got =>
        !hasTypeParams got && !hasTypeParams wanted && identical (.named got) (.named wanted)
    match function.signature.results with
    | [result] => makes result
    | [result, failure] => makes result && failure.type.isError
    | _ => false

/-- Whether two names differ at most in the case of ASCII letters. -/
def sameIgnoringCase (first second : String) : Bool :=
  first.toList.map Char.toLower == second.toList.map Char.toLower

/-- The constructor a test calls: the last one named after the type, else the first of all. -/
def findConstructor (functions : List Function) (wanted : NamedType) (typeName : String)
    (external : Bool) : Option Function :=
  let expected := "new" ++ typeName
  -- By name, the first that fits is kept until one comes that is named as expected.
  (Function.byName functions).foldl (fun selected function =>
    if !isConstructorFor function wanted external then selected
    else if selected.isNone || sameIgnoringCase function.name expected then some function
    else selected) none

end Scaffold
