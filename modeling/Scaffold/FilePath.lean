import Scaffold.Order
import Scaffold.Text.Split

/-! File paths, compared by their components and written as they were given. -/

namespace Scaffold

/-- One component of a path. -/
inductive Component
  | root
  | current
  | parent
  | named (name : String)
  deriving DecidableEq, Repr, Inhabited

/-- A component as it is written. -/
def Component.text : Component → String
  | .root => "/"
  | .current => "."
  | .parent => ".."
  | .named name => name

/-- The place of a kind of component in the order of components. -/
def Component.rank : Component → Nat
  | .root => 0
  | .current => 1
  | .parent => 2
  | .named _ => 3

/-- Whether one component comes before another; named ones go by their names. -/
def Component.before : Component → Component → Bool
  | .named first, .named second => decide (first < second)
  | first, second => decide (first.rank < second.rank)

/-- A path in the spelling it was given in. -/
structure FilePath where
  text : String
  deriving DecidableEq, Repr, Inhabited

namespace FilePath

/-- The leading slash or dot of a path, and what follows it. -/
def leading (path : FilePath) : List Char × List Char :=
  -- A dot leads only as a whole component.
  match path.text.toList with
  | '/' :: rest => (['/'], rest)
  | ['.'] => (['.'], [])
  | '.' :: '/' :: rest => (['.'], '/' :: rest)
  | chars => ([], chars)

/-- Whether the text between two slashes names nothing. -/
def isVoid (piece : List Char) : Bool :=
  piece.isEmpty || piece == ['.']

/-- The component a piece between two slashes stands for. -/
def pieceComponent (piece : List Char) : Component :=
  if piece == ['.', '.'] then .parent else .named (String.ofList piece)

/-- The components of a path. -/
def components (path : FilePath) : List Component :=
  -- Doubled slashes and inner dots add no component.
  let (lead, body) := path.leading
  let pieces := (splitOn '/' body).filter (fun piece => !isVoid piece)
  let first := if lead == ['/'] then [Component.root]
    else if lead == ['.'] then [Component.current] else []
  first ++ pieces.map pieceComponent

/-- Whether two paths have the same components. -/
def same (first second : FilePath) : Bool :=
  first.components == second.components

/-- Whether a list of components comes before another, compared from the front. -/
def componentsBefore : List Component → List Component → Bool
  | [], [] => false
  | [], _ :: _ => true
  | _ :: _, [] => false
  | first :: rest, second :: others =>
    if first == second then componentsBefore rest others else first.before second

/-- Whether a path comes before another. -/
def before (first second : FilePath) : Bool :=
  componentsBefore first.components second.components

/-- Whether a path comes before another or has the same components. -/
def beforeOrSame (first second : FilePath) : Bool :=
  !second.before first

/-- The pieces of a path up to its last named component. -/
def solidPieces (path : FilePath) : List (List Char) :=
  dropTrailing isVoid (splitOn '/' path.leading.2)

/-- The path without its last component; the root and the empty path have none to lose. -/
def parent? (path : FilePath) : Option FilePath :=
  let lead := path.leading.1
  match path.solidPieces with
  | [] => if lead == ['.'] then some ⟨""⟩ else none
  | pieces =>
    -- The slash before the lost component goes with it.
    some ⟨String.ofList (lead ++ joinWith ['/'] (dropTrailing isVoid pieces.dropLast))⟩

/-- The last component, if it names a file or a directory. -/
def fileName? (path : FilePath) : Option String :=
  match path.solidPieces.getLast? with
  | none => none
  | some piece => if piece == ['.', '.'] then none else some (String.ofList piece)

/-- A path with one more component. -/
def join (path : FilePath) (name : String) : FilePath :=
  if beginsWith name "/" then ⟨name⟩
  else if path.text.isEmpty || finishesWith path.text "/" then ⟨path.text ++ name⟩
  else ⟨path.text ++ "/" ++ name⟩

/-- The path with its last component replaced; behind a trailing `..` the name is added. -/
def withFileName (path : FilePath) (name : String) : FilePath :=
  match path.fileName? with
  | none => path.join name
  | some _ => (path.parent?.getD path).join name

/-- The path followed by its parents, at most `limit` of them. -/
def ancestorsWithin : Nat → FilePath → List FilePath
  | 0, path => [path]
  | limit + 1, path =>
    path :: match path.parent? with
      | none => []
      | some parent => ancestorsWithin limit parent

/-- The path, its parent, the parent of that, and so on to the top. -/
def ancestors (path : FilePath) : List FilePath :=
  -- Each parent has a component less.
  ancestorsWithin path.components.length path

/-- Whether the file is named as Go source. -/
def isGoSource (path : FilePath) : Bool :=
  -- A name that is nothing but the ending has no ending.
  match path.fileName? with
  | none => false
  | some name => finishesWith name ".go" && name != ".go"

/-- Whether the file is named as a Go test. -/
def isGoTest (path : FilePath) : Bool :=
  match path.fileName? with
  | none => false
  | some name => finishesWith name "_test.go"

/-- The components of a path below a directory; all of them if the path lies elsewhere. -/
def componentsBelow (path directory : FilePath) : List Component :=
  if directory.components.isPrefixOf path.components then
    path.components.drop directory.components.length
  else path.components

end FilePath

end Scaffold
