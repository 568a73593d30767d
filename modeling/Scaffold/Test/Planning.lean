import Scaffold.Test.Constructor
import Scaffold.Test.Plan
import Scaffold.Test.Qualifier
import Scaffold.Test.Target

/-! The plan of a test made from the tested function, its types written for the test file. -/

namespace Scaffold

open Go

/-- A step that may need further imports. -/
abbrev Writing := StateM ImportSet

namespace Viewpoint

/-- A type as it is written in the test file. -/
def writeType (view : Viewpoint) (type : ResolvedType) : Writing String :=
  writePieces view.qualify type.pieces

/-- The zero value of a type as it is written in the test file. -/
def writeZero (view : Viewpoint) (type : ResolvedType) : Writing String :=
  writePieces view.qualify type.zeroPieces

/-- A parameter: an empty context, a zero value if it has no name, else a field of its own. -/
def paramField (view : Viewpoint) (isFirst : Bool) (param : Var) : Writing Field := do
  let type ← view.writeType param.type
  if isFirst && param.type.isContext then
    let package ← view.qualify .context
    return .valued type (package ++ ".Background()")
  else if param.name.isEmpty || param.name == "_" then
    return .valued type (← view.writeZero param.type)
  else return .named param.name type

/-- Parameters from some index on; the last one of a variadic function is spread. -/
def paramFieldsFrom (view : Viewpoint) (variadic : Bool) (index : Nat) :
    List Var → Writing (List Field)
  | [] => return []
  | param :: rest => do
    let field ← view.paramField (index == 0) param
    let spread := variadic && rest.isEmpty
    return { field with variadic := spread }
      :: (← paramFieldsFrom view variadic (index + 1) rest)

/-- The parameters of a function. -/
def paramFields (view : Viewpoint) (signature : Signature) : Writing (List Field) :=
  view.paramFieldsFrom signature.variadic 0 signature.params

/-- Results from some index on, each named by its place and whether it is an error. -/
def resultFieldsFrom (view : Viewpoint) (name : Nat → Bool → String) (index : Nat) :
    List Var → Writing (List Field)
  | [] => return []
  | result :: rest => do
    let type ← view.writeType result.type
    return .named (name index result.type.isError) type
      :: (← resultFieldsFrom view name (index + 1) rest)

/-- The tested function as the test calls it. -/
def targetCallee (view : Viewpoint) (function : Function) : Writing Callee := do
  let args ← view.paramFields function.signature
  let count := function.signature.results.length
  let results ← view.resultFieldsFrom (fun index isError => gotName index count isError) 0
    function.signature.results
  return ⟨function.name, args, results⟩

/-- The variable for a result of a constructor: the receiver, a last error, or none. -/
def madeName (holder : String) (count index : Nat) (isError : Bool) : String :=
  if index = 0 then holder else if index + 1 = count && isError then "err" else "_"

/-- A constructor as the test calls it. -/
def constructorCallee (view : Viewpoint) (function : Function) (holder : String) :
    Writing Callee := do
  let args ← view.paramFields function.signature
  let count := function.signature.results.length
  let results ← view.resultFieldsFrom (madeName holder count) 0 function.signature.results
  return ⟨function.name, args, results⟩

end Viewpoint

/-- How a receiver is to be declared, before its types are written. -/
structure ReceiverChoice where
  holder : String
  base : ResolvedType
  constructor : Option Function

/-- The variable and the constructor for the receiver of a method; functions have none. -/
def chooseReceiver (functions : List Function) (function : Function) (external : Bool) :
    Except Failure (Option ReceiverChoice) :=
  match function.receiver with
  | none => .ok none
  | some receiver => do
    let typeName ← receiverTypeName function
    match receiver.type.receiverNamed? with
    | none => throw (.undefinedReceiver function.name)
    | some wanted =>
      return some ⟨receiverVariable receiver.name typeName, receiver.type.withoutPointer,
        findConstructor functions wanted typeName external⟩

/-- A receiver with its types written. -/
def Viewpoint.writeReceiver (view : Viewpoint) (choice : ReceiverChoice) : Writing Receiver := do
  let type ← view.writeType choice.base
  match choice.constructor with
  | none => return ⟨.named choice.holder type, none⟩
  | some function =>
    return ⟨.named choice.holder type, some (← view.constructorCallee function choice.holder)⟩

/-- The plan of a test of a function, and the imports it needs. -/
def Viewpoint.writePlan (view : Viewpoint) (testName : String) (function : Function)
    (choice : Option ReceiverChoice) : Writing TestPlan := do
  let testing ← view.qualify .testing
  let package ← view.qualify view.subject
  let target ← view.targetCallee function
  let receiver ← match choice with
    | none => pure none
    | some choice => some <$> view.writeReceiver choice
  return ⟨testing, package, testName, target, receiver⟩

/-- A field with a mark in front of its name, if it has one. -/
def Field.marked (mark : String) (field : Field) : Field :=
  if field.isNamed then { field with name := mark ++ field.name } else field

/-- A callee with its named parameters marked where they share names with others. -/
def Callee.apartFrom (callee : Callee) (others : List Field) : Callee :=
  let mark := clashMark (others.map Field.name) (callee.args.map Field.name)
  { callee with args := callee.args.map (Field.marked mark) }

/-- The plan with the parameters of the constructor named apart from those of the target. -/
def TestPlan.separated (plan : TestPlan) : TestPlan :=
  let apart (receiver : Receiver) : Receiver :=
    { receiver with
      constructor := receiver.constructor.map fun callee => callee.apartFrom plan.target.args }
  { plan with receiver := plan.receiver.map apart }

end Scaffold
