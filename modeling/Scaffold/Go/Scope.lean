import Scaffold.Go.Diagnostic
import Scaffold.Go.ResolvedType
import Scaffold.Go.SourceFile
import Scaffold.Imports.Import
import Scaffold.Keyed

/-! The names that type expressions can use: imports of a file, declared types of a package. -/

namespace Scaffold.Go

/-- The packages that the names of a file can refer to. -/
structure FileScope where
  path : FilePath
  lines : LineIndex
  /-- Packages by the names they have in the file. -/
  named : List (String × PackageRef)
  /-- Packages whose names are used without a qualifier. -/
  dots : List PackageRef

namespace FileScope

/-- The name an imported package declares, guessed from the path if it is not known. -/
def declaredName (known : List (String × String)) (path : String) : String :=
  (known.lookup path).getD (assumedName path)

/-- The scope with one more import; the last one to bind a name keeps it. -/
def bind (known : List (String × String)) (scope : FileScope) (spec : ImportSpec) : FileScope :=
  let package : PackageRef := ⟨spec.path, declaredName known spec.path⟩
  if spec.isBlank then scope
  else if spec.isDot then { scope with dots := scope.dots ++ [package] }
  else { scope with named := (spec.name.getD package.name, package) :: scope.named }

/-- The scope of a file, given the names that imported packages are known to declare. -/
def ofFile (known : List (String × String)) (file : SourceFile) : FileScope :=
  file.imports.foldl (bind known) ⟨file.path, file.lines, [], []⟩

/-- A type error at an offset of the file. -/
def diagnostic (scope : FileScope) (offset : Nat) (error : TypeError) : Diagnostic :=
  ⟨scope.path, scope.lines.position offset, error⟩

end FileScope

/-- A declared type together with the file it is declared in. -/
structure TypeDecl where
  scope : FileScope
  spec : TypeSpec

/-- The declared types of a package by name, in the order of names. -/
abbrev TypeDecls := List (String × TypeDecl)

/-- The declarations with one more; the first one of a name counts, later ones are errors. -/
def TypeDecls.add (decls : TypeDecls × List Diagnostic) (scope : FileScope) (spec : TypeSpec) :
    TypeDecls × List Diagnostic :=
  if spec.name == "_" then decls
  else if (decls.1.lookup spec.name).isSome then
    (decls.1, decls.2 ++ [scope.diagnostic spec.start (.redeclared spec.name)])
  else (insertKeyed spec.name ⟨scope, spec⟩ decls.1, decls.2)

/-- The declared types of files, and an error for each one declared again. -/
def TypeDecls.collect (files : List (FileScope × SourceFile)) : TypeDecls × List Diagnostic :=
  files.foldl (fun decls (scope, file) =>
    file.typeSpecs.foldl (fun decls spec => TypeDecls.add decls scope spec) decls) ([], [])

end Scaffold.Go
