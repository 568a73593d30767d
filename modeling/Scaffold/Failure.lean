import Scaffold.Config
import Scaffold.Go.Diagnostic
import Scaffold.Imports.Merge
import Scaffold.Test.Plan

/-! What can go wrong on the way to a generated test, and how it is reported. -/

namespace Scaffold

/-- The classes of failures. -/
inductive FailureKind
  | invalidTarget
  | noEnclosingFunction
  | unexportedTarget
  | unsupportedImport
  | packageMismatch
  | resolution
  | render
  | config
  | io
  | serialization
  | other
  deriving DecidableEq, Repr, Inhabited

namespace FailureKind

/-- The report of a failure of this class. -/
def report (kind : FailureKind) (detail : String) : String :=
  match kind with
  | .invalidTarget => "Invalid target: " ++ detail
  | .noEnclosingFunction => "No enclosing function"
  | .unexportedTarget => "Unexported target: " ++ detail
  | .unsupportedImport => "Unsupported import form: " ++ detail
  | .packageMismatch => "Package mismatch: " ++ detail
  | .resolution => "Resolution error: " ++ detail
  | .render => "Render error: " ++ detail
  | .config => "Configuration error: " ++ detail
  | .io => "IO error: " ++ detail
  | .serialization => "Serialization error: " ++ detail
  | .other => detail

/-- Whether a change of the user's own source can mend the failure. -/
def isUserError : FailureKind → Bool
  | .invalidTarget | .noEnclosingFunction | .unexportedTarget | .unsupportedImport
  | .packageMismatch => true
  | _ => false

/-- Whether the failure lies in what was about to be written. -/
def isRender (kind : FailureKind) : Bool :=
  kind == .render

end FailureKind

/-- Why no test could be generated, or its changes not be applied. -/
inductive Failure
  | looseFile
  | brokenSource
  | illTyped (first : Go.Diagnostic)
  | missingFile (path : FilePath)
  | missingPackageClause (path : FilePath)
  | missingModule (path : FilePath)
  | misplaced (error : PositionError)
  | noEnclosingFunction
  | unexportedFunction (function package : String)
  | unexportedReceiver (receiver method : String)
  | dotImport (file : FilePath) (path : String)
  | missingTestPackage (path : FilePath)
  | foreignTestPackage (declared : String) (path : FilePath)
  | outsidePackage (path : FilePath)
  | untypedDeclaration (path : FilePath) (row : Nat)
  | namelessReceiver (method : String)
  | undefinedReceiver (method : String)
  | merge (error : MergeError)
  | plan (error : PlanError)
  | config (error : ConfigError)
  | io (reason : String)
  | createdTwice (path : FilePath)
  | editedMissing (path : FilePath)
  | unfitEdit (path : FilePath) (error : EditError)
  deriving DecidableEq, Repr

namespace Failure

/-- The class of a failure. -/
def kind : Failure → FailureKind
  | .looseFile | .brokenSource | .illTyped _ | .missingFile _ | .missingPackageClause _
  | .missingModule _ | .misplaced _ => .invalidTarget
  | .noEnclosingFunction => .noEnclosingFunction
  | .unexportedFunction _ _ | .unexportedReceiver _ _ => .unexportedTarget
  | .dotImport _ _ => .unsupportedImport
  | .missingTestPackage _ | .foreignTestPackage _ _ => .packageMismatch
  | .outsidePackage _ | .untypedDeclaration _ _ | .namelessReceiver _ | .undefinedReceiver _
  | .merge _ => .resolution
  | .plan _ => .render
  | .config _ => .config
  | .io _ => .io
  | .createdTwice _ | .editedMissing _ | .unfitEdit _ _ => .other

/-- What happened, without the class of the failure. -/
def detail : Failure → String
  | .looseFile => "current file in command-line-arguments package"
  | .brokenSource => "package has parse errors"
  | .illTyped first => "package has type errors: " ++ first.text
  | .missingFile path => path.text ++ " does not exist"
  | .missingPackageClause path => path.text ++ " has no package clause"
  | .missingModule path => path.text ++ " has no module directive"
  | .misplaced error => error.message
  | .noEnclosingFunction => ""
  | .unexportedFunction function package =>
    "cannot add test of unexported function " ++ function ++ " to external test package "
      ++ package ++ "_test"
  | .unexportedReceiver receiver method =>
    "cannot add external test for method " ++ receiver ++ "." ++ method
      ++ " as receiver type is not exported"
  | .dotImport file path =>
    "\"add a test for func\" does not support files containing dot imports (" ++ file.text
      ++ " imports " ++ quoted path ++ ")"
  | .missingTestPackage path => "missing package declaration in " ++ path.text
  | .foreignTestPackage declared path =>
    "invalid package declaration " ++ quoted declared ++ " in test file " ++ quoted path.text
  | .outsidePackage path => path.text ++ " is not part of its package"
  | .untypedDeclaration path row =>
    "no type information for declaration at " ++ path.text ++ ":" ++ toString (row + 1)
  | .namelessReceiver method =>
    "the receiver type of " ++ method ++ " is neither named type nor alias type"
  | .undefinedReceiver method => "receiver of " ++ method ++ " has no named type"
  | .merge error => "could not compute the import fix edits: " ++ error.message
  | .plan error => error.message
  | .config error => error.message
  | .io reason => reason
  | .createdTwice path => "refusing to create " ++ path.text ++ ": file exists"
  | .editedMissing path => "cannot edit missing file " ++ path.text
  | .unfitEdit path error => "failed to apply edits to " ++ path.text ++ ": " ++ error.message

/-- The report of a failure. -/
def message (failure : Failure) : String :=
  failure.kind.report failure.detail

end Failure

end Scaffold
