/-! Type expressions as they are written, with the offsets at which names stand. -/

namespace Scaffold.Go

/-- Which way values may go through a channel. -/
inductive ChanDir
  | both
  | send
  | receive
  deriving DecidableEq, Repr, Inhabited

mutual

/-- A type expression. -/
inductive TypeExpr
  | name (text : String) (start : Nat)
  | qualified (package : String) (start : Nat) (name : String)
  | generic (base : TypeExpr) (args : List TypeExpr)
  | pointer (elem : TypeExpr)
  | slice (elem : TypeExpr)
  | array (length : String) (elem : TypeExpr)
  | map (key value : TypeExpr)
  | chan (dir : ChanDir) (elem : TypeExpr)
  | func (signature : SignatureExpr)
  | struct (fields : List FieldExpr)
  | interface (elems : List ElemExpr)
  | paren (inner : TypeExpr)
  /-- A comment standing where the element of a pointer or of parentheses is looked for. -/
  | comment (text : String) (start : Nat)
  /-- All types that share an underlying type, as constraints write it. -/
  | approximate (text : String)

/-- Names sharing one type in a parameter list; no name for an unnamed parameter. -/
inductive ParamExpr
  | mk (names : List String) (type : TypeExpr) (start : Nat) (variadic : Bool)

/-- The parameters and results of a function. -/
inductive SignatureExpr
  | mk (params results : List ParamExpr)

/-- One line of a struct: names sharing a type, or an embedded type, perhaps with a tag. -/
inductive FieldExpr
  | named (names : List String) (type : TypeExpr) (tag : Option String)
  | embedded (pointer : Bool) (type : TypeExpr) (tag : Option String)

/-- One line of an interface: a method, an embedded type or a union of types. -/
inductive ElemExpr
  | method (name : String) (signature : SignatureExpr)
  | embedded (type : TypeExpr)
  | union (types : List TypeExpr)

end

instance : Inhabited TypeExpr := ⟨.name "" 0⟩

instance : Inhabited SignatureExpr := ⟨.mk [] []⟩

namespace ParamExpr

def names : ParamExpr → List String
  | .mk names _ _ _ => names

def type : ParamExpr → TypeExpr
  | .mk _ type _ _ => type

/-- The offset of the type. -/
def start : ParamExpr → Nat
  | .mk _ _ start _ => start

def variadic : ParamExpr → Bool
  | .mk _ _ _ variadic => variadic

end ParamExpr

namespace SignatureExpr

def params : SignatureExpr → List ParamExpr
  | .mk params _ => params

def results : SignatureExpr → List ParamExpr
  | .mk _ results => results

end SignatureExpr

/-- The type behind any pointers and parentheses. -/
def TypeExpr.core : TypeExpr → TypeExpr
  | .pointer elem => elem.core
  | .paren inner => inner.core
  | type => type

end Scaffold.Go
