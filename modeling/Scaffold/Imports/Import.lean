import Scaffold.Order
import Scaffold.Text.Split
import Scaffold.Unicode.Alphanumeric
import Scaffold.Unicode.Blank

/-! Imports to be written, the groups they stand in, and names guessed from their paths. -/

namespace Scaffold

/-- An import path, with the local name it is given if it does not keep its own. -/
structure Import where
  path : String
  name : Option String
  deriving DecidableEq, Repr, Inhabited

namespace Import

/-- The import as it stands in a declaration. -/
def spec (needed : Import) : String :=
  match needed.name with
  | some name => name ++ " \"" ++ needed.path ++ "\""
  | none => "\"" ++ needed.path ++ "\""

/-- Whether an import may stand before another: by path, then without a name before with one. -/
def mayPrecede (first second : Import) : Bool :=
  if first.path == second.path then
    match first.name, second.name with
    | none, _ => true
    | some _, none => false
    | some name, some other => decide (name ≤ other)
  else decide (first.path < second.path)

/-- Imports by path and name. -/
def sorted (imports : List Import) : List Import :=
  sortOrdered mayPrecede imports

end Import

/-- The groups of a declaration, in the order they are written. -/
inductive ImportGroup
  | standard
  | foreign
  | own
  deriving DecidableEq, Repr, Inhabited

/-- The place of a group among the groups. -/
def ImportGroup.rank : ImportGroup → Nat
  | .standard => 0
  | .foreign => 1
  | .own => 2

/-- All groups in order. -/
def ImportGroup.all : List ImportGroup :=
  [.standard, .foreign, .own]

/-- The path prefixes of a setting that lists them with commas. -/
def ownPrefixes (setting : Option String) : List (List Char) :=
  match setting with
  | none => []
  | some text =>
    ((splitOn ',' text.toList).map Unicode.trimBlanks).filter fun lead => !lead.isEmpty

/-- The group of a path: own by its prefix, foreign by a dot in its first element. -/
def importGroup (setting : Option String) (path : String) : ImportGroup :=
  if (ownPrefixes setting).any fun lead => lead.isPrefixOf path.toList then .own
  else if (path.toList.takeWhile (· != '/')).contains '.' then .foreign
  else .standard

/-- Whether a path element only tells a major version. -/
def isMajorVersion : List Char → Bool
  | 'v' :: digits => !digits.isEmpty && digits.all Char.isDigit
  | _ => false

/-- The path element that the name of a package is guessed from. -/
def namingElement (path : List Char) : List Char :=
  -- A version at the end belongs to the element before it.
  match (splitOn '/' path).reverse with
  | [] => path
  | last :: rest =>
    if isMajorVersion last then rest.headD last else last

/-- The name a package is likely to declare, guessed from its import path. -/
def assumedName (path : String) : String :=
  let element := namingElement path.toList
  let base := (afterPrefix? "go-".toList element).getD element
  String.ofList (base.takeWhile fun c => Unicode.isAlphanumeric c || c == '_')

end Scaffold
