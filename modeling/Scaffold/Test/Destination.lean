import Scaffold.Change
import Scaffold.Failure
import Scaffold.Go.Header

/-! The file a test goes to, the package it belongs to there, and the changes that add it. -/

namespace Scaffold

open Go

/-- The test file beside a source file. -/
def testFilePath (path : FilePath) : FilePath :=
  let name := ((path.fileName?.getD "").toList)
  let base := (beforeSuffix? ".go".toList name).getD name
  path.withFileName (String.ofList base ++ "_test.go")

/-- Which package a test belongs to. -/
inductive TestPackage
  /-- The tested package itself. -/
  | own
  /-- The package that sees the tested one only from outside. -/
  | external
  deriving DecidableEq, Repr, Inhabited

/-- The package that a test file declares, which must be one of the two for the subject. -/
def testPackage (subject : String) (file : SourceFile) : Except Failure TestPackage :=
  match file.packageName? with
  | none => .error (.missingTestPackage file.path)
  | some declared =>
    if declared == subject then .ok .own
    else if beforeSuffix? "_test".toList declared.toList == some subject.toList then .ok .external
    else .error (.foreignTestPackage declared file.path)

/-- The head of a new test file: the notice of the tested file, and the package clause. -/
def newFileHeader (subject : SourceFile) (package : String) : String :=
  let notice := match subject.copyrightNotice? with
    | some notice => notice ++ "\n\n"
    | none => ""
  notice ++ "package " ++ package ++ "_test\n"

/-- Where a test goes. -/
inductive Destination
  | fresh (path : FilePath) (header : String)
  | existing (file : SourceFile)

/-- The file a test goes to. -/
def Destination.path : Destination → FilePath
  | .fresh path _ => path
  | .existing file => file.path

/-- The changes that add a test and the imports it needs. -/
def Destination.changes (destination : Destination) (test : String) (imports : List Import)
    (setting : Option String) : Except Failure (List Change) :=
  match destination with
  | .fresh path header =>
    -- Insertions at the one offset of an empty file stay in this order.
    .ok [.create path, .edit path [.insertion 0 header, .insertion 0 (importBlock setting imports),
      .insertion 0 test]]
  | .existing file =>
    match mergeImports setting file imports with
    | .error error => .error (.merge error)
    | .ok edits => .ok [.edit file.path (edits ++ [.insertion file.length test])]

end Scaffold
