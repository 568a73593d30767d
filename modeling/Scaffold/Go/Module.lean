import Scaffold.FilePath
import Scaffold.Go.Lexeme
import Scaffold.Unicode.Blank

/-! Modules: the directive that names one, and the import paths of the directories inside it. -/

namespace Scaffold.Go

/-- A module: the directory it fills, and the import path of that directory. -/
structure Module where
  root : FilePath
  path : String
  deriving DecidableEq, Repr, Inhabited

/-- The file that declares a module. -/
def moduleFileName : String :=
  "go.mod"

/-- Whether a character can belong to the path of a module. -/
def isModulePathChar (c : Char) : Bool :=
  !Unicode.isBlank c && c != '"'

/-- The text without one leading quote. -/
def skipQuote (text : List Char) : List Char :=
  (afterPrefix? ['"'] text).getD text

/-- The path of a module directive at the head of a text, blanks in front of it skipped. -/
def directivePath? (text : List Char) : Option (List Char) := do
  let behind ← afterPrefix? "module".toList (text.dropWhile Unicode.isBlank)
  let body := behind.dropWhile Unicode.isBlank
  let (path, rest) := leadingRun isModulePathChar (skipQuote body)
  let (gap, after) := leadingRun Unicode.isBlank (skipQuote rest)
  -- Blanks set the path off, and nothing but blanks follows it on its line.
  if body.length < behind.length && !path.isEmpty && (gap.contains '\n' || after.isEmpty) then
    some path
  else none

/-- What follows each line break of a text. -/
def behindBreaks : List Char → List (List Char)
  | [] => []
  | c :: rest => if c == '\n' then rest :: behindBreaks rest else behindBreaks rest

/-- The path in the first module directive that begins a line of a text. -/
def modulePath? (text : String) : Option String :=
  ((text.toList :: behindBreaks text.toList).findSome? directivePath?).map String.ofList

namespace Module

/-- The import path of a directory of the module. -/
def importPath (module : Module) (directory : FilePath) : String :=
  let parts := (directory.componentsBelow module.root).map Component.text
  if parts.isEmpty then module.path else module.path ++ "/" ++ joinStrings "/" parts

/-- The directory of the module that an import path names, if it names one. -/
def directory? (module : Module) (path : String) : Option FilePath := do
  let rest ← if path == module.path then some []
    else (afterPrefix? module.path.toList path.toList).bind (afterPrefix? ['/'])
  let parts := (splitOn '/' rest).filter fun part => !part.isEmpty
  return parts.foldl (fun directory part => directory.join (String.ofList part)) module.root

end Module

end Scaffold.Go
