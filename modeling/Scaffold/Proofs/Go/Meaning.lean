import Scaffold.Proofs.Go.Lexeme
import Scaffold.Proofs.Go.Doubts

/-! What a type expression means, and the elements it is spelled with by that alone. -/

namespace Scaffold.Go

mutual

/--
What a type expression says, wherever it stands.

Parentheses are left out, and each name in a list has a type of its own.
-/
inductive TypeMeaning
  | name (text : String)
  | qualified (package name : String)
  | generic (base : TypeMeaning) (args : List TypeMeaning)
  | pointer (elem : TypeMeaning)
  | slice (elem : TypeMeaning)
  | array (length : String) (elem : TypeMeaning)
  | map (key value : TypeMeaning)
  | chan (dir : ChanDir) (elem : TypeMeaning)
  | func (signature : SignatureMeaning)
  | struct (fields : List FieldMeaning)
  | interface (elems : List ElemMeaning)
  | comment (text : String)
  | approximate (text : String)

/-- A parameter or result, perhaps without a name. -/
inductive ParamMeaning
  | mk (name : Option String) (type : TypeMeaning) (variadic : Bool)

/-- The parameters and results of a function. -/
inductive SignatureMeaning
  | mk (params results : List ParamMeaning)

/-- A field of a struct; an embedded one has no name. -/
inductive FieldMeaning
  | mk (name : Option String) (type : TypeMeaning) (tag : Option String)

/-- A method, an embedded type or a union of types. -/
inductive ElemMeaning
  | method (name : String) (signature : SignatureMeaning)
  | embedded (type : TypeMeaning)
  | union (types : List TypeMeaning)

end

namespace ParamMeaning

def name : ParamMeaning → Option String
  | .mk name _ _ => name

def type : ParamMeaning → TypeMeaning
  | .mk _ type _ => type

def variadic : ParamMeaning → Bool
  | .mk _ _ variadic => variadic

/-- The type of the variable that the parameter is. -/
def held (param : ParamMeaning) : TypeMeaning :=
  if param.variadic then .slice param.type else param.type

end ParamMeaning

namespace FieldMeaning

def name : FieldMeaning → Option String
  | .mk name _ _ => name

def type : FieldMeaning → TypeMeaning
  | .mk _ type _ => type

end FieldMeaning

/--
The meaning of a channel of both directions with an element that stands there without parentheses.

An arrow behind the word for channels belongs to that channel, not to the element.
-/
def channelMeaning : TypeExpr → TypeMeaning → TypeMeaning
  | .chan .receive inner, .chan .receive meaning => .chan .send (channelMeaning inner meaning)
  | _, meaning => .chan .both meaning

/-- A parameter for each name, or one without a name. -/
def singleParams (names : List String) (type : TypeMeaning) (variadic : Bool) : List ParamMeaning :=
  if names.isEmpty then [.mk none type variadic]
  else names.map fun name => .mk (some name) type variadic

mutual

/-- What an expression means. -/
def TypeExpr.meaning : TypeExpr → TypeMeaning
  | .name text _ => .name text
  | .qualified package _ name => .qualified package name
  | .generic base args => .generic base.meaning (typeMeanings args)
  | .pointer elem => .pointer elem.meaning
  | .slice elem => .slice elem.meaning
  | .array length elem => .array length elem.meaning
  | .map key value => .map key.meaning value.meaning
  | .chan .both elem => channelMeaning elem elem.meaning
  | .chan .send elem => .chan .send elem.meaning
  | .chan .receive elem => .chan .receive elem.meaning
  | .func signature => .func signature.meaning
  | .struct fields => .struct (fieldMeanings fields)
  | .interface elems => .interface (elemMeanings elems)
  | .paren inner => inner.meaning
  | .comment text _ => .comment text
  | .approximate text => .approximate text

/-- What some expressions mean. -/
def typeMeanings : List TypeExpr → List TypeMeaning
  | [] => []
  | first :: rest => first.meaning :: typeMeanings rest

/-- What a signature means. -/
def SignatureExpr.meaning : SignatureExpr → SignatureMeaning
  | .mk params results => .mk (paramMeanings params) (paramMeanings results)

/-- What parameters mean, one for each name. -/
def paramMeanings : List ParamExpr → List ParamMeaning
  | [] => []
  | .mk names type _ variadic :: rest =>
    singleParams names type.meaning variadic ++ paramMeanings rest

/-- What fields mean, one for each name. -/
def fieldMeanings : List FieldExpr → List FieldMeaning
  | [] => []
  | .named names type tag :: rest =>
    (names.map fun name => .mk (some name) type.meaning tag) ++ fieldMeanings rest
  | .embedded pointer type tag :: rest =>
    .mk none (if pointer then .pointer type.meaning else type.meaning) tag :: fieldMeanings rest

/-- What the elements of an interface mean. -/
def elemMeanings : List ElemExpr → List ElemMeaning
  | [] => []
  | .method name signature :: rest => .method name signature.meaning :: elemMeanings rest
  | .embedded type :: rest => .embedded type.meaning :: elemMeanings rest
  | .union types :: rest => .union (typeMeanings types) :: elemMeanings rest

end

section Spelling

/-- A mark as an element of a source. -/
def markLexeme (text : String) : Lexeme :=
  .token .mark text.toList

/-- A reserved word as an element of a source. -/
def keywordLexeme (text : String) : Lexeme :=
  .token .keyword text.toList

/-- A name as an element of a source. -/
def nameLexeme (text : String) : Lexeme :=
  .token .word text.toList

/-- Elements of a list with a separator and a blank between each two of them. -/
def separated (separator : Lexeme) : List (List Lexeme) → List Lexeme
  | [] => []
  | first :: rest => first ++ rest.flatMap fun next => separator :: .blank ' ' :: next

/-- The elements of the length of an array, which a bracket ends. -/
def lengthLexemes (length : String) : List Lexeme :=
  (allLexemes (length.toList ++ [']'])).1.dropLast

/-- Whether a type is a channel to receive from. -/
def TypeMeaning.isReceive : TypeMeaning → Bool
  | .chan .receive _ => true
  | _ => false

/-- Elements in parentheses, where those are needed. -/
def enclosedLexemes (needed : Bool) (lexemes : List Lexeme) : List Lexeme :=
  if needed then markLexeme "(" :: lexemes ++ [markLexeme ")"] else lexemes

/-- A name with a blank behind it, if there is a name. -/
def labelLexemes : Option String → List Lexeme
  | none => []
  | some name => [nameLexeme name, .blank ' ']

/-- The elements of results, which need no parentheses if there is only one, without a name. -/
def resultLexemes (results : List ParamMeaning) (lexemes : List (List Lexeme)) : List Lexeme :=
  match results with
  | [] => []
  | [.mk none _ _] => .blank ' ' :: lexemes.flatten
  | _ => .blank ' ' :: markLexeme "(" :: separated (markLexeme ",") lexemes ++ [markLexeme ")"]

mutual

/-- The elements that a type of some meaning is spelled with. -/
def TypeMeaning.lexemes : TypeMeaning → List Lexeme
  | .name text => [nameLexeme text]
  | .qualified package name => [nameLexeme package, markLexeme ".", nameLexeme name]
  | .generic base args =>
    base.lexemes ++ markLexeme "[" :: separated (markLexeme ",") (typeLexemes args) ++
      [markLexeme "]"]
  | .pointer elem => markLexeme "*" :: elem.lexemes
  | .slice elem => markLexeme "[" :: markLexeme "]" :: elem.lexemes
  | .array length elem => markLexeme "[" :: lengthLexemes length ++ markLexeme "]" :: elem.lexemes
  | .map key value =>
    keywordLexeme "map" :: markLexeme "[" :: key.lexemes ++ markLexeme "]" :: value.lexemes
  | .chan .both elem =>
    keywordLexeme "chan" :: .blank ' ' :: enclosedLexemes elem.isReceive elem.lexemes
  | .chan .send elem => keywordLexeme "chan" :: markLexeme "<-" :: .blank ' ' :: elem.lexemes
  | .chan .receive elem => markLexeme "<-" :: keywordLexeme "chan" :: .blank ' ' :: elem.lexemes
  | .func signature => keywordLexeme "func" :: signature.lexemes
  | .struct fields =>
    keywordLexeme "struct" :: markLexeme "\x7b" ::
      separated (.token .terminator [';']) (fieldLexemes fields) ++ [markLexeme "\x7d"]
  | .interface elems =>
    keywordLexeme "interface" :: markLexeme "\x7b" ::
      separated (.token .terminator [';']) (elemLexemes elems) ++ [markLexeme "\x7d"]
  | .comment _ | .approximate _ => []

/-- The elements of each of some types. -/
def typeLexemes : List TypeMeaning → List (List Lexeme)
  | [] => []
  | first :: rest => first.lexemes :: typeLexemes rest

/-- The elements of parameters and results, as they stand behind the name of a function. -/
def SignatureMeaning.lexemes : SignatureMeaning → List Lexeme
  | .mk params results =>
    markLexeme "(" :: separated (markLexeme ",") (paramLexemes params) ++ markLexeme ")" ::
      resultLexemes results (paramLexemes results)

/-- The elements of each of some parameters. -/
def paramLexemes : List ParamMeaning → List (List Lexeme)
  | [] => []
  | .mk name type variadic :: rest =>
    (labelLexemes name ++ (if variadic then [markLexeme "..."] else []) ++ type.lexemes) ::
      paramLexemes rest

/-- The elements of each of some fields. -/
def fieldLexemes : List FieldMeaning → List (List Lexeme)
  | [] => []
  | .mk name type _ :: rest => (labelLexemes name ++ type.lexemes) :: fieldLexemes rest

/-- The elements of each of some lines of an interface. -/
def elemLexemes : List ElemMeaning → List (List Lexeme)
  | [] => []
  | .method name signature :: rest => (nameLexeme name :: signature.lexemes) :: elemLexemes rest
  | .embedded type :: rest => type.lexemes :: elemLexemes rest
  | .union _ :: rest => [] :: elemLexemes rest

end

end Spelling

end Scaffold.Go
