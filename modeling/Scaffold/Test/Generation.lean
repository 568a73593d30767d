import Scaffold.Go.Loading
import Scaffold.Test.Destination
import Scaffold.Test.FileImports
import Scaffold.Test.Planning
import Scaffold.Test.Rendered

/-! A test generated for the function around a place in a workspace. -/

namespace Scaffold

open Go

/-- A stretch of a file. -/
structure Location where
  path : FilePath
  range : Range
  deriving DecidableEq, Repr, Inhabited

/-- Checks that the types in a package can be relied on. -/
def checkPackage (package : Package) : Except Failure Unit :=
  if package.isLoose then .error .looseFile
  else if package.isBroken then .error .brokenSource
  else match package.errors with
    | [] => .ok ()
    | first :: _ => .error (.illTyped first)

/-- A file of a sound package, and the names under which it imports others. -/
structure Subject where
  package : Package
  file : SourceFile
  imports : ImportSet

/-- The file at a path, if its package is sound. -/
def openSubject (package : Package) (path : FilePath) : Except Failure Subject := do
  checkPackage package
  match package.file? path with
  | none => throw (.outsidePackage path)
  | some file => return ⟨package, file, ← fileImports package.metadata.deps file⟩

/-- Where a test goes, the package it belongs to there, and the imports that are there. -/
structure TestSite where
  destination : Destination
  package : TestPackage
  imports : ImportSet

/-- The site of the tests of a file: the test file at a path, or a new one if it has no text. -/
def siteOf (subject : Subject) (path : FilePath) (text : Option String) :
    Except Failure TestSite :=
  match text with
  | none => .ok ⟨.fresh path (newFileHeader subject.file subject.package.name), .external, []⟩
  | some text => do
    let file := SourceFile.ofText path text
    let package ← testPackage subject.package.name file
    return ⟨.existing file, package, ← fileImports subject.package.metadata.deps file⟩

/-- The function around a stretch of a file. -/
def targetOf (subject : Subject) (range : Range) : Except Failure Function :=
  match subject.file.lines.offsets range with
  | .error error => .error (.misplaced error)
  | .ok (start, stop) =>
    match subject.file.enclosing? start stop with
    | none => .error .noEnclosingFunction
    | some decl =>
      match subject.package.functionAt? subject.file.path decl.start with
      | none => .error (.untypedDeclaration subject.file.path decl.row)
      | some function => .ok function

/-- The names of the functions that a test file declares already. -/
def Destination.functionNames : Destination → List String
  | .fresh _ _ => []
  | .existing file => file.funcNames

/-- What a test at a site sees of the package of its subject. -/
def viewpointOf (subject : Subject) (site : TestSite) : Viewpoint :=
  ⟨subject.package.ref, site.package == .external, site.imports, subject.imports⟩

/-- The plan of a test of a function, and the imports that have to be added for it. -/
def planTest (subject : Subject) (site : TestSite) (function : Function) :
    Except Failure (TestPlan × List Import) := do
  let view := viewpointOf subject site
  if view.external then checkVisibility function subject.package.name
  let name := uniqueTestName (← testName function) site.destination.functionNames
  let choice ← chooseReceiver subject.package.plainFunctions function view.external
  let (plan, extra) := (view.writePlan name function choice).run []
  return (plan.separated, neededImports extra)

/-- The changes that put the test of a planned function at its site. -/
def writeTest (site : TestSite) (setting : Option String) (plan : TestPlan)
    (imports : List Import) : Except Failure (List Change) :=
  match plan.render with
  | .error error => .error (.plan error)
  | .ok text => site.destination.changes text imports setting

/-- The changes that add a test for the function around a stretch of a file. -/
def testChanges (subject : Subject) (site : TestSite) (range : Range) (setting : Option String) :
    Except Failure (List Change) := do
  let function ← targetOf subject range
  let (plan, imports) ← planTest subject site function
  writeTest site setting plan imports

/-- The changes that add a test for the function at a location of a workspace. -/
def addTest {m : Type → Type} [Monad m] [MonadExcept Failure m] (workspace : Workspace m)
    (location : Location) : m (List Change) := do
  let package ← loadPackage workspace location.path
  let subject ← ofExcept (openSubject package location.path)
  let path := testFilePath location.path
  let text ← workspace.read path
  let site ← ofExcept (siteOf subject path text)
  ofExcept (testChanges subject site location.range workspace.ownPrefix)

end Scaffold
