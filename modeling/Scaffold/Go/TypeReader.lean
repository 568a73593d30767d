import Scaffold.Go.Reader
import Scaffold.Go.TypeExpr

/-! Type expressions read from tokens; array lengths are left to a reader of expressions. -/

namespace Scaffold.Go.Reader

open Reading

/-- An entry of a parameter list, before it is known which single names are types. -/
inductive ParamEntry
  | bare (type : TypeExpr) (start : Nat)
  | named (name : String) (type : TypeExpr) (start : Nat)
  | rest (name : Option String) (type : TypeExpr) (start : Nat)

/-- The names at the front of the entries that share the type of the entry behind them. -/
def sharedNames : List ParamEntry → Option (List String × TypeExpr × Nat × List ParamEntry)
  | .named name type start :: rest => some ([name], type, start, rest)
  | .bare (.name text _) _ :: rest =>
    (sharedNames rest).map fun (names, type, start, after) => (text :: names, type, start, after)
  | _ => none

/-- Entries turned into parameters: single names in front of a named entry share its type. -/
def groupParams : Nat → List ParamEntry → List ParamExpr
  | 0, _ => []
  | _, [] => []
  | limit + 1, .rest name type start :: entries =>
    .mk name.toList type start true :: groupParams limit entries
  | limit + 1, .named name type start :: entries =>
    .mk [name] type start false :: groupParams limit entries
  | limit + 1, .bare type start :: entries =>
    match sharedNames (.bare type start :: entries) with
    | some (names, shared, start, after) =>
      .mk names shared start false :: groupParams limit after
    | none => .mk [] type start false :: groupParams limit entries

/-- Passes if the next token is one of some marks, and takes nothing. -/
def ahead (texts : List String) : Reader Unit := do
  let token ← next
  guard (texts.any token.isMark)

/-- The comment right before the next token, as the type a lookup of the element finds there. -/
def strayComment : Reader (Option TypeExpr) := do
  let token ← next
  return token.comments.head?.map fun comment => .comment comment.text comment.start

/-- Reads one term of a union. -/
def term (type : Reader TypeExpr) : Reader TypeExpr :=
  either type do
    let (_, tokens) ← withTaken (mark "~" *> type)
    return .approximate (sourceOf tokens)

/-- Reads types separated by bars. -/
def union (type : Reader TypeExpr) : Reader (List TypeExpr) := do
  let first ← term type
  let rest ← many (mark "|" *> term type)
  return first :: rest

/-- Reads type arguments between brackets; of a union only the first term counts. -/
def typeArgs (type : Reader TypeExpr) : Reader (List TypeExpr) := do
  let _ ← mark "["
  let args ← commaSeparated (union type)
  let _ ← maybe (mark ",")
  let _ ← mark "]"
  return args.filterMap List.head?

/-- Reads a name, perhaps with a package before it and type arguments behind it. -/
def namedType (type : Reader TypeExpr) : Reader TypeExpr := do
  let first ← word
  let base ← match ← maybe (mark "." *> word) with
    | some name => pure (TypeExpr.qualified first.text first.start name.text)
    | none => pure (TypeExpr.name first.text first.start)
  match ← maybe (typeArgs type) with
  | some args => return .generic base args
  | none => return base

/-- Reads one entry of a parameter list. -/
def paramEntry (type : Reader TypeExpr) : Reader ParamEntry := do
  let first ← next
  -- A name followed by a whole type names a parameter; otherwise the entry is a type.
  let spread : Reader ParamEntry := do
    let name ← maybe word
    let _ ← mark "..."
    let token ← next
    return .rest (name.map Token.text) (← type) token.start
  let named : Reader ParamEntry := do
    let name ← word
    let token ← next
    let read ← type
    ahead [",", ")"]
    return .named name.text read token.start
  either spread (either named (return .bare (← type) first.start))

/-- Reads a list of parameters between parentheses. -/
def paramList (type : Reader TypeExpr) : Reader (List ParamExpr) := do
  let _ ← mark "("
  let entries ← maybe (commaSeparated (paramEntry type))
  if entries.isSome then
    let _ ← maybe (mark ",")
  let _ ← mark ")"
  let entries := entries.getD []
  return groupParams entries.length entries

/-- Reads parameters and results. -/
def signature (type : Reader TypeExpr) : Reader SignatureExpr := do
  let params ← paramList type
  let single : Reader (List ParamExpr) := do
    let token ← next
    -- A single result is a type without parentheses.
    guard (!token.isMark "(")
    return [.mk [] (← type) token.start false]
  let results ← maybe (either (paramList type) single)
  return .mk params (results.getD [])

/-- Reads the tag of a line of a struct, if there is one, up to the end of the line. -/
def fieldTag : Reader (Option String) := do
  let tag ← maybe literal
  let token ← next
  guard (token.kind == .terminator || token.isMark "\x7d")
  return tag.map Token.text

/-- Reads a line of a struct. -/
def field (type : Reader TypeExpr) : Reader FieldExpr := do
  let named : Reader FieldExpr := do
    let names ← commaSeparated word
    let read ← type
    return .named (names.map Token.text) read (← fieldTag)
  let embedded : Reader FieldExpr := do
    let star ← maybe (mark "*")
    let read ← namedType type
    return .embedded star.isSome read (← fieldTag)
  either named embedded

/-- Reads a line of an interface. -/
def elem (type : Reader TypeExpr) : Reader ElemExpr := do
  let method : Reader ElemExpr := do
    let name ← word
    return .method name.text (← signature type)
  let types : Reader ElemExpr := do
    match ← union type with
    | [single] => return .embedded single
    | several => return .union several
  either method types

/-- Reads lines between braces, each but the last ended. -/
def lines {α : Type} (line : Reader α) : Reader (List α) := do
  let _ ← mark "\x7b"
  let first ← maybe line
  let rest ← if first.isSome then many (done *> line) else pure []
  if first.isSome then
    let _ ← maybe done
  let _ ← mark "\x7d"
  return first.toList ++ rest

/-- Reads a channel type behind the word for channels. -/
def channel (type : Reader TypeExpr) : Reader TypeExpr := do
  -- An arrow in front of another channel belongs to that channel if it can.
  let nested : Reader TypeExpr := do
    ahead ["<-"]
    return .chan .both (← type)
  let send : Reader TypeExpr := do
    let _ ← mark "<-"
    return .chan .send (← type)
  either nested (either send (return .chan .both (← type)))

/-- Reads a type, given readers for the types and expressions inside it. -/
def typeWith (type : Reader TypeExpr) (expression : Reader Unit) : Reader TypeExpr := do
  let first ← next
  if first.kind == .word then namedType type
  else if first.isMark "*" then do
    let _ ← mark "*"
    let stray ← strayComment
    let elem ← type
    return .pointer (stray.getD elem)
  else if first.isMark "(" then do
    let _ ← mark "("
    let stray ← strayComment
    let inner ← type
    let _ ← mark ")"
    return .paren (stray.getD inner)
  else if first.isMark "[" then do
    let _ ← mark "["
    match ← maybe (mark "]") with
    | some _ => return .slice (← type)
    | none =>
      let (_, tokens) ← withTaken expression
      let _ ← mark "]"
      return .array (sourceOf tokens) (← type)
  else if first.isMark "map" then do
    let _ ← mark "map"
    let _ ← mark "["
    let key ← type
    let _ ← mark "]"
    return .map key (← type)
  else if first.isMark "chan" then mark "chan" *> channel type
  else if first.isMark "<-" then do
    let _ ← mark "<-"
    let _ ← mark "chan"
    return .chan .receive (← type)
  else if first.isMark "func" then do
    let _ ← mark "func"
    return .func (← signature type)
  else if first.isMark "struct" then do
    let _ ← mark "struct"
    return .struct (← lines (field type))
  else if first.isMark "interface" then do
    let _ ← mark "interface"
    return .interface (← lines (elem type))
  else failure

/-- Reads a type with at most `depth` types inside one another. -/
def typeWithin (expression : Reader Unit) : Nat → Reader TypeExpr
  | 0 => failure
  | depth + 1 => typeWith (typeWithin expression depth) expression

/-- Reads type parameters between brackets and gives their names. -/
def typeParams (type : Reader TypeExpr) : Reader (List String) := do
  let group : Reader (List String) := do
    let names ← commaSeparated word
    let _ ← union type
    return names.map Token.text
  let _ ← mark "["
  let groups ← commaSeparated group
  let _ ← maybe (mark ",")
  let _ ← mark "]"
  return groups.flatten

end Scaffold.Go.Reader
