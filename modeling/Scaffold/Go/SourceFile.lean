import Scaffold.FilePath
import Scaffold.Go.Outline
import Scaffold.Text.Position

/-! Go files as their top-level structure shows them. -/

namespace Scaffold.Go

/-- A Go file: its comments in front of everything else, and its items. -/
structure SourceFile where
  path : FilePath
  text : String
  comments : List Comment
  items : List Item
  /-- Some part of the text could not be read. -/
  broken : Bool

namespace SourceFile

/-- The structure of a source text; of a broken one, what stands before the breach. -/
def ofText (path : FilePath) (text : String) : SourceFile :=
  let (all, complete) := tokens text.toList
  let (items, read) := Reader.itemsWithin (all.length + 1) all
  let leading := (all.head?.map Token.comments).getD []
  ⟨path, text, leading, items, !(complete && read)⟩

/-- The line index of the text. -/
def lines (file : SourceFile) : LineIndex :=
  .ofText file.text

/-- The first clause that names a package, wherever it stands. -/
def package? (file : SourceFile) : Option PackageClause :=
  file.items.findSome? fun
    | .package clause => some clause
    | _ => none

/-- The name of the package the file belongs to. -/
def packageName? (file : SourceFile) : Option String :=
  file.package?.map PackageClause.name

/-- The import declarations in source order. -/
def importDecls (file : SourceFile) : List ImportDecl :=
  file.items.filterMap fun
    | .imports decl => some decl
    | _ => none

/-- The imports in source order. -/
def imports (file : SourceFile) : List ImportSpec :=
  file.importDecls.flatMap ImportDecl.specs

/-- The declared types and aliases in source order. -/
def typeSpecs (file : SourceFile) : List TypeSpec :=
  file.items.flatMap fun
    | .types specs => specs
    | _ => []

/-- The declared functions and methods in source order. -/
def funcDecls (file : SourceFile) : List FuncDecl :=
  file.items.filterMap fun
    | .func decl => some decl
    | _ => none

/-- The names of the declared functions, methods left out. -/
def funcNames (file : SourceFile) : List String :=
  (file.funcDecls.filter fun decl => decl.receiver.isNone).map FuncDecl.name

/-- The length of the text in bytes. -/
def length (file : SourceFile) : Nat :=
  byteLength file.text.toList

/-- The function or method declaration around a stretch of bytes. -/
def enclosing? (file : SourceFile) (start stop : Nat) : Option FuncDecl :=
  -- A stretch inside a declaration lies in no other node, however deep it is.
  match nodeAround? (outline file.text) start stop with
  | some ⟨.item (.func decl), _, _⟩ => some decl
  | _ => none

end SourceFile

end Scaffold.Go
