import Scaffold.Test.Naming
import Scaffold.Text.Quoted
import Scaffold.Text.Split

/-! Everything a generated test says, and when that is complete enough to be written. -/

namespace Scaffold

/-- A parameter or result: read from the test case by name, or passed as a fixed value. -/
structure Field where
  name : String
  type : String
  value : String
  variadic : Bool
  deriving DecidableEq, Repr, Inhabited

/-- A field with a name. -/
def Field.named (name type : String) : Field :=
  ⟨name, type, "", false⟩

/-- A field with a fixed value. -/
def Field.valued (type value : String) : Field :=
  ⟨"", type, value, false⟩

/-- Whether a test case has the field. -/
def Field.isNamed (field : Field) : Bool :=
  !field.name.isEmpty

/-- The expression passed for a parameter; the last of a variadic function is spread. -/
def Field.argument (field : Field) : String :=
  let expression := if field.isNamed then "tt." ++ field.name else field.value
  if field.variadic then expression ++ "..." else expression

/-- A function as the test calls it. -/
structure Callee where
  name : String
  args : List Field
  results : List Field
  deriving DecidableEq, Repr, Inhabited

/-- Whether the last result is written as an error. -/
def Callee.endsInError (callee : Callee) : Bool :=
  (callee.results.getLast?.map fun result => result.type == "error").getD false

/-- The variable that holds the receiver, and the function that makes it, if there is one. -/
structure Receiver where
  holder : Field
  constructor : Option Callee
  deriving DecidableEq, Repr, Inhabited

/-- What a generated test says. -/
structure TestPlan where
  /-- The qualifier of the standard package for tests. -/
  testing : String
  /-- The qualifier of the tested package, empty inside it. -/
  package : String
  testName : String
  target : Callee
  receiver : Option Receiver
  deriving DecidableEq, Repr, Inhabited

/-- Why a plan cannot be written. -/
inductive PlanError
  | missingName
  | missingTesting
  | fieldWithoutType (owner : String)
  | ambiguousField (owner name value : String)
  | incompleteReceiver
  | constructorWithoutResults (name : String)
  deriving DecidableEq, Repr

/-- The wording of a plan that cannot be written. -/
def PlanError.message : PlanError → String
  | .missingName => "missing test or function name"
  | .missingTesting => "missing testing package qualifier"
  | .fieldWithoutType owner => owner ++ ": field without a type"
  | .ambiguousField owner name value =>
    owner ++ ": exactly one of name and value must be set (name " ++ quoted name ++ ", value "
      ++ quoted value ++ ")"
  | .incompleteReceiver => "receiver variable without name or type"
  | .constructorWithoutResults name => "constructor " ++ name ++ " has no results"

/-- Checks that a field has a type and either a name or a value. -/
def checkField (owner : String) (field : Field) : Except PlanError Unit :=
  if field.type.isEmpty then .error (.fieldWithoutType owner)
  else if field.name.isEmpty == field.value.isEmpty then
    .error (.ambiguousField owner field.name field.value)
  else .ok ()

/-- Checks that the arguments of a function can be passed. -/
def checkArgs (callee : Callee) : Except PlanError Unit :=
  callee.args.forM (checkField callee.name)

/-- Checks that a constructor gives something and its arguments can be passed. -/
def checkConstructor (constructor : Callee) : Except PlanError Unit :=
  if constructor.results.isEmpty then .error (.constructorWithoutResults constructor.name)
  else checkArgs constructor

/-- Checks that a receiver can be declared and made. -/
def checkReceiver (receiver : Receiver) : Except PlanError Unit :=
  if receiver.holder.name.isEmpty || receiver.holder.type.isEmpty then
    .error .incompleteReceiver
  else match receiver.constructor with
    | none => .ok ()
    | some constructor => checkConstructor constructor

/-- Checks that a plan can be written. -/
def TestPlan.check (plan : TestPlan) : Except PlanError Unit := do
  if plan.testName.isEmpty || plan.target.name.isEmpty then throw .missingName
  if plan.testing.isEmpty then throw .missingTesting
  checkArgs plan.target
  match plan.receiver with
  | none => return ()
  | some receiver => checkReceiver receiver

end Scaffold
