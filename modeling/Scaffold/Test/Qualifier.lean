import Scaffold.Go.Printed
import Scaffold.Imports.Import
import Scaffold.Keyed
import Scaffold.Search

/-! How packages are referred to from a test file, and the imports this takes. -/

namespace Scaffold

open Go

/-- The name a package has in a file, and whether the import writes it. -/
structure LocalName where
  name : String
  renamed : Bool
  deriving DecidableEq, Repr, Inhabited

/-- Import paths with the names they have in a file, in path order. -/
abbrev ImportSet := List (String × LocalName)

/-- What the choice of qualifiers depends on: the tested package and two files' imports. -/
structure Viewpoint where
  subject : PackageRef
  external : Bool
  testImports : ImportSet
  fileImports : ImportSet

namespace Viewpoint

/-- Whether a name is bound to another path, in the test file or by an import to be added. -/
def isTaken (view : Viewpoint) (extra : ImportSet) (name path : String) : Bool :=
  let binds (entry : String × LocalName) : Bool := entry.1 != path && entry.2.name == name
  view.testImports.any binds || extra.any binds

/-- A name with the least number behind it that leaves it free. -/
def freshName (view : Viewpoint) (extra : ImportSet) (base path : String) : String :=
  -- Each bound name rules out at most one number.
  match leastPassing (fun number => !view.isTaken extra (base ++ toString number) path)
      (view.testImports.length + extra.length + 1) 2 with
  | some number => base ++ toString number
  | none => base

/-- The name to import a package under that neither file imports yet. -/
def chooseName (view : Viewpoint) (extra : ImportSet) (package : PackageRef) : LocalName :=
  -- The name used in the tested file is kept if it is free.
  let preferred := (view.fileImports.lookup package.path).getD ⟨package.name, false⟩
  if view.isTaken extra preferred.name package.path then
    ⟨view.freshName extra preferred.name package.path, true⟩
  else preferred

/-- The qualifier of a package, noting the import it needs; none within the package itself. -/
def qualify (view : Viewpoint) (package : PackageRef) : StateM ImportSet String := do
  if !view.external && package.path == view.subject.path then return ""
  match view.testImports.lookup package.path with
  | some known => return known.name
  | none =>
    let extra ← get
    match extra.lookup package.path with
    | some known => return known.name
    | none =>
      let chosen := view.chooseName extra package
      set (insertKeyed package.path chosen extra)
      return chosen.name

end Viewpoint

/-- The imports to be added, in path order. -/
def neededImports (extra : ImportSet) : List Import :=
  extra.map fun (path, chosen) => ⟨path, if chosen.renamed then some chosen.name else none⟩

end Scaffold
