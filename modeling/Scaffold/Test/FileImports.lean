import Scaffold.Failure
import Scaffold.Go.Scope
import Scaffold.Test.Qualifier

/-! The names under which a file imports packages. -/

namespace Scaffold

open Go

/-- The name an import binds, with the package's own name known or guessed from the path. -/
def localName (known : List (String × String)) (spec : ImportSpec) : LocalName :=
  match spec.name with
  | some name => ⟨name, true⟩
  | none => ⟨FileScope.declaredName known spec.path, false⟩

/-- The names that some imports bind; names brought in without a qualifier are refused. -/
def collectNames (known : List (String × String)) (file : FilePath) :
    ImportSet → List ImportSpec → Except Failure ImportSet
  | names, [] => .ok names
  | names, spec :: rest =>
    if spec.isDot then .error (.dotImport file spec.path)
    else if spec.isBlank then collectNames known file names rest
    else collectNames known file (insertKeyed spec.path (localName known spec) names) rest

/-- The names under which a file imports packages, by import path. -/
def fileImports (known : List (String × String)) (file : SourceFile) :
    Except Failure ImportSet :=
  collectNames known file.path [] file.imports

end Scaffold
