import Scaffold.Go.ResolvedType

/-! Types and zero values as they are written, with package qualifiers left open. -/

namespace Scaffold.Go

/-- A piece of written source: fixed text, or a declared name to be qualified. -/
inductive Piece
  | text (text : String)
  | name (package : PackageRef) (name : String)
  deriving DecidableEq, Repr

/-- A name behind the qualifier chosen for its package; an empty qualifier leaves it bare. -/
def qualifiedName (qualifier name : String) : String :=
  if qualifier.isEmpty then name else qualifier ++ "." ++ name

/-- The text of the pieces, the qualifiers asked for one after the other. -/
def writePieces {m : Type → Type} [Monad m] (qualify : PackageRef → m String) :
    List Piece → m String
  | [] => pure ""
  | .text text :: rest => do return text ++ (← writePieces qualify rest)
  | .name package name :: rest => do
    let qualifier ← qualify package
    return qualifiedName qualifier name ++ (← writePieces qualify rest)

/-- The packages whose qualifiers are asked for, in order. -/
def packagesOf (pieces : List Piece) : List PackageRef :=
  pieces.filterMap fun
    | .name package _ => some package
    | .text _ => none

/-- How a kind of channel begins. -/
def ChanDir.opening : ChanDir → String
  | .both => "chan "
  | .send => "chan<- "
  | .receive => "<-chan "

/-- The pieces that a name and a blank put before a type make, if there is a name. -/
def leadingName (name : String) : List Piece :=
  if name.isEmpty then [] else [.text name, .text " "]

/-- The name of a field before its type. -/
def fieldName : Option String → List Piece
  | none => []
  | some name => [.text name, .text " "]

/-- Whether the arrow of a channel type would be read as part of a channel written around it. -/
def ResolvedType.takesArrow (outer : ChanDir) : ResolvedType → Bool
  | .chan .receive _ => outer == .both
  | _ => false

/-- Pieces between parentheses, where those are needed. -/
def enclosed (needed : Bool) (pieces : List Piece) : List Piece :=
  if needed then .text "(" :: pieces ++ [.text ")"] else pieces

/-- Whether a type is a slice. -/
def ResolvedType.isSlice : ResolvedType → Bool
  | .slice _ => true
  | _ => false

/-- The pieces of a last parameter; the brackets of a spread slice give way to dots. -/
def spread (needed : Bool) (pieces : List Piece) : List Piece :=
  if needed then .text "..." :: pieces.tail else pieces

mutual

/-- A type as it is written. -/
def ResolvedType.pieces : ResolvedType → List Piece
  | .basic name => [.text name]
  | .error => [.text "error"]
  | .any => [.text "any"]
  | .named type => type.pieces
  | .aliased package name _ => [.name package name]
  | .param name => [.text name]
  | .pointer elem => .text "*" :: elem.pieces
  | .slice elem => .text "[]" :: elem.pieces
  | .array length elem => .text "[" :: .text length :: .text "]" :: elem.pieces
  | .map key value => .text "map[" :: key.pieces ++ .text "]" :: value.pieces
  | .chan dir elem => .text dir.opening :: enclosed (elem.takesArrow dir) elem.pieces
  | .func signature => .text "func" :: signature.pieces
  | .struct fields => .text "struct\x7b" :: fieldPieces fields ++ [.text "\x7d"]
  | .interface elems => .text "interface\x7b" :: elemPieces elems ++ [.text "\x7d"]
  | .invalid _ => [.text "invalid type"]

/-- A defined type as it is written, with its type arguments. -/
def NamedType.pieces : NamedType → List Piece
  | ⟨package, name, [], _⟩ => [.name package name]
  | ⟨package, name, first :: rest, _⟩ =>
    .name package name :: .text "[" :: argPieces (first :: rest) ++ [.text "]"]

/-- Types with commas between them. -/
def argPieces : List ResolvedType → List Piece
  | [] => []
  | [type] => type.pieces
  | type :: next :: rest => type.pieces ++ .text ", " :: argPieces (next :: rest)

/-- Parameters and results as they stand behind the name of a function. -/
def Signature.pieces : Signature → List Piece
  | ⟨params, results, variadic⟩ =>
    .text "(" :: paramPieces variadic params ++ .text ")" :: resultPieces results

/-- Parameters with commas between them; the last of a variadic function spreads its slice. -/
def paramPieces (variadic : Bool) : List Var → List Piece
  | [] => []
  | [⟨name, type⟩] => leadingName name ++ spread (variadic && type.isSlice) type.pieces
  | ⟨name, type⟩ :: next :: rest =>
    leadingName name ++ type.pieces ++ .text ", " :: paramPieces variadic (next :: rest)

/-- Results behind the parameters; only a single unnamed one does without parentheses. -/
def resultPieces : List Var → List Piece
  | [] => []
  | [⟨name, type⟩] =>
    if name.isEmpty then .text " " :: type.pieces
    else .text " (" :: leadingName name ++ type.pieces ++ [.text ")"]
  | first :: second :: rest => .text " (" :: varPieces (first :: second :: rest) ++ [.text ")"]

/-- Variables with commas between them. -/
def varPieces : List Var → List Piece
  | [] => []
  | [⟨name, type⟩] => leadingName name ++ type.pieces
  | ⟨name, type⟩ :: next :: rest =>
    leadingName name ++ type.pieces ++ .text ", " :: varPieces (next :: rest)

/-- Fields with semicolons between them. -/
def fieldPieces : List StructField → List Piece
  | [] => []
  | [⟨name, type⟩] => fieldName name ++ type.pieces
  | ⟨name, type⟩ :: next :: rest =>
    fieldName name ++ type.pieces ++ .text "; " :: fieldPieces (next :: rest)

/-- Interface elements with semicolons between them. -/
def elemPieces : List InterfaceElem → List Piece
  | [] => []
  | [elem] => elem.pieces
  | elem :: next :: rest => elem.pieces ++ .text "; " :: elemPieces (next :: rest)

/-- A method or an embedded type as it is written. -/
def InterfaceElem.pieces : InterfaceElem → List Piece
  | .method name signature => .text name :: signature.pieces
  | .embedded type => type.pieces

end

/-- How the zero value of a type can be written. -/
inductive ZeroForm
  | literal (text : String)
  | composite
  | allocated
  deriving DecidableEq, Repr

/-- The zero value of a basic type. -/
def basicZero (name : String) : ZeroForm :=
  if name == "bool" then .literal "false"
  else if name == "string" then .literal "\"\""
  else if isBasicName name then .literal "0"
  else .allocated

/-- The form of zero value that a shape allows. -/
def Shape.zeroForm : Shape → ZeroForm
  | .struct | .array => .composite
  | .basic name => basicZero name
  | .nillable => .literal "nil"
  | .unknown => .allocated

/-- The form the zero value of a type takes. -/
def ResolvedType.zeroForm : ResolvedType → ZeroForm
  | .basic name => basicZero name
  | .error | .any | .pointer _ | .slice _ | .map _ _ | .chan _ _ | .func _ | .interface _ =>
    .literal "nil"
  | .array _ _ | .struct _ => .composite
  | .named type => type.shape.zeroForm
  | .aliased _ _ target => target.zeroForm
  | .param _ | .invalid _ => .allocated

/-- An expression for the zero value of a type. -/
def ResolvedType.zeroPieces (type : ResolvedType) : List Piece :=
  -- A value of unknown shape is what a pointer to a new one points to.
  match type.zeroForm with
  | .literal text => [.text text]
  | .composite => type.pieces ++ [.text "\x7b\x7d"]
  | .allocated => .text "*new(" :: type.pieces ++ [.text ")"]

end Scaffold.Go
