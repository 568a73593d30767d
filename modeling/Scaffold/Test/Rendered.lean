import Scaffold.Test.Plan

/-! The text of a generated test: nested blocks of lines, indented by their depth. -/

namespace Scaffold

/-- A line of text inside a number of blocks. -/
structure Line where
  depth : Nat
  text : String
  deriving DecidableEq, Repr

/-- A line outside all blocks. -/
def line (text : String) : List Line :=
  [⟨0, text⟩]

/-- Lines inside one more block. -/
def inside (body : List Line) : List Line :=
  body.map fun inner => ⟨inner.depth + 1, inner.text⟩

/-- Lines between an opening and a closing line. -/
def block (opening : String) (body : List Line) (closing : String) : List Line :=
  line opening ++ inside body ++ line closing

/-- A line with a tab for each block around it, and its line break. -/
def Line.render (shown : Line) : String :=
  String.ofList (List.replicate shown.depth '\t') ++ shown.text ++ "\n"

/-- The text of some lines. -/
def renderLines (lines : List Line) : String :=
  String.join (lines.map Line.render)

/-- The declarations of named parameters under a heading, if there are any. -/
def paramLines (heading : String) (args : List Field) : List Line :=
  match args.filter Field.isNamed with
  | [] => []
  | named => line heading ++ named.flatMap fun arg => line (arg.name ++ " " ++ arg.type)

/-- Each element with its index. -/
def indexed {α : Type} (xs : List α) : List (Nat × α) :=
  (List.range xs.length).zip xs

/-- The declarations of what the results are expected to be. -/
def wantLines (results : List Field) : List Line :=
  (indexed results).flatMap fun (index, result) =>
    if result.name == "gotErr" then line "wantErr bool"
    else line (wantName index ++ " " ++ result.type)

/-- The expressions passed to a function. -/
def callArgs (args : List Field) : String :=
  joinStrings ", " (args.map Field.argument)

/-- The names that receive the results of a function. -/
def resultNames (results : List Field) : String :=
  joinStrings ", " (results.map Field.name)

/-- What stands before a name of the tested package. -/
def qualifierText (package : String) : String :=
  if package.isEmpty then "" else package ++ "."

/-- The lines that make the receiver, or leave that to the reader. -/
def receiverLines (package : String) (receiver : Receiver) : List Line :=
  match receiver.constructor with
  | some constructor =>
    line (resultNames constructor.results ++ " := " ++ qualifierText package ++ constructor.name
        ++ "(" ++ callArgs constructor.args ++ ")")
      ++ if constructor.endsInError then
        block "if err != nil \x7b"
          (line "t.Fatalf(\"could not construct receiver type: %v\", err)") "\x7d"
      else []
  | none =>
    line "// TODO: construct the receiver type."
      ++ line ("var " ++ receiver.holder.name ++ " " ++ receiver.holder.type)

/-- The line that calls the tested function. -/
def callLine (plan : TestPlan) : List Line :=
  let owner := match plan.receiver with
    | some receiver => receiver.holder.name ++ "."
    | none => qualifierText plan.package
  let call := owner ++ plan.target.name ++ "(" ++ callArgs plan.target.args ++ ")"
  if plan.target.results.isEmpty then line call
  else line (resultNames plan.target.results ++ " := " ++ call)

/-- The lines that compare the error with what is expected. -/
def errorLines (target : Callee) : List Line :=
  if target.endsInError then
    block "if gotErr != nil \x7b"
        (block "if !tt.wantErr \x7b"
            (line ("t.Errorf(\"" ++ target.name ++ "() failed: %v\", gotErr)")) "\x7d"
          ++ line "return") "\x7d"
      ++ block "if tt.wantErr \x7b"
        (line ("t.Fatal(\"" ++ target.name ++ "() succeeded unexpectedly\")")) "\x7d"
  else []

/-- The lines that compare one result with what is expected. -/
def compareLines (target : Callee) (index : Nat) (result : Field) : List Line :=
  if result.name == "gotErr" then []
  else block "if true \x7b"
    (line ("t.Errorf(\"" ++ target.name ++ "() = %v, want %v\", " ++ result.name ++ ", tt."
      ++ wantName index ++ ")")) "\x7d"

/-- The lines that compare the results; an error at the end is compared elsewhere. -/
def comparisonLines (target : Callee) : List Line :=
  let errors := if target.endsInError then 1 else 0
  if target.results.length - errors = 0 then []
  else line "// TODO: update the condition below to compare got with tt.want."
    ++ (indexed target.results).flatMap fun (index, result) => compareLines target index result

/-- The table of test cases, its fields declared and its rows left open. -/
def tableLines (plan : TestPlan) : List Line :=
  let constructorArgs := match plan.receiver.bind Receiver.constructor with
    | some constructor => constructor.args
    | none => []
  line "tests := []struct \x7b"
    ++ inside (line "name string // description of this test case"
      ++ paramLines "// Named input parameters for receiver constructor." constructorArgs
      ++ paramLines "// Named input parameters for target function." plan.target.args
      ++ wantLines plan.target.results)
    ++ block "\x7d\x7b" (line "// TODO: Add test cases.") "\x7d"

/-- The lines run for each test case. -/
def caseLines (plan : TestPlan) : List Line :=
  (match plan.receiver with
    | some receiver => receiverLines plan.package receiver
    | none => [])
    ++ callLine plan ++ errorLines plan.target ++ comparisonLines plan.target

/-- The lines of a generated test, behind an empty one. -/
def TestPlan.lines (plan : TestPlan) : List Line :=
  line "" ++ block ("func " ++ plan.testName ++ "(t *" ++ plan.testing ++ ".T) \x7b")
    (tableLines plan
      ++ block "for _, tt := range tests \x7b"
        (block ("t.Run(tt.name, func(t *" ++ plan.testing ++ ".T) \x7b") (caseLines plan) "\x7d)")
        "\x7d")
    "\x7d"

/-- The text of a generated test. -/
def TestPlan.render (plan : TestPlan) : Except PlanError String := do
  plan.check
  return renderLines plan.lines

end Scaffold
