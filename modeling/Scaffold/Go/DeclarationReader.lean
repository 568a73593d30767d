import Scaffold.Go.Declaration
import Scaffold.Go.Literal
import Scaffold.Go.Phrase

/-! The top-level items of a file read from its tokens. -/

namespace Scaffold.Go.Reader

open Reading

/-- The offset right behind the last of some tokens. -/
def stopOf (tokens : List Token) : Nat :=
  (tokens.getLast?.map Token.stop).getD 0

/-- Reads the clause that names the package. -/
def packageClause : Reader PackageClause := do
  let first ← mark "package"
  let name ← word
  return ⟨name.text, first.start, name.stop, first.row⟩

/-- Reads one import. -/
def importSpec : Reader ImportSpec := do
  let first ← next
  let name ← maybe (either word (mark "."))
  let path ← literal
  return ⟨name.map Token.text, unquote path.text, first.start, path.stop⟩

/-- Reads the imports between parentheses, and where they close. -/
def importGroup : Reader (List ImportSpec × Nat) := do
  let _ ← mark "("
  let first ← maybe importSpec
  let rest ← if first.isSome then many (done *> importSpec) else pure []
  if first.isSome then
    let _ ← maybe done
  let close ← mark ")"
  return (first.toList ++ rest, close.start)

/-- Reads an import declaration. -/
def importDecl : Reader ImportDecl := do
  let first ← mark "import"
  let grouped : Reader ImportDecl := do
    let (specs, close) ← importGroup
    return ⟨first.start, close + 1, specs, some close⟩
  let single : Reader ImportDecl := do
    let spec ← importSpec
    return ⟨first.start, spec.stop, [spec], none⟩
  either grouped single

/-- Reads one declared type. -/
def typeSpec : Reader TypeSpec := do
  let name ← word
  let aliased : Reader TypeSpec := do
    let _ ← mark "="
    return ⟨name.text, name.start, true, [], ← type⟩
  let plain : Reader TypeSpec := do
    return ⟨name.text, name.start, false, [], ← type⟩
  let generic : Reader TypeSpec := do
    let params ← typeParams type
    let equals ← maybe (mark "=")
    return ⟨name.text, name.start, equals.isSome, params, ← type⟩
  either aliased (either plain generic)

/-- Reads a declaration of types. -/
def typeDecl : Reader (List TypeSpec) := do
  let _ ← mark "type"
  let group : Reader (List TypeSpec) := do
    let _ ← mark "("
    let specs ← many (typeSpec <* done)
    let _ ← mark ")"
    return specs
  either group (return [← typeSpec])

/-- Reads a function or method declaration. -/
def funcDecl : Reader FuncDecl := do
  let plain : Reader FuncDecl := do
    let first ← mark "func"
    let name ← word
    let params ← maybe (typeParams type)
    let read ← signature type
    return ⟨name.text, name.start, first.start, 0, first.row, none, params.getD [], read⟩
  let method : Reader FuncDecl := do
    let first ← mark "func"
    let receiver ← paramList type
    let name ← word
    let read ← signature type
    return ⟨name.text, name.start, first.start, 0, first.row, some receiver, [], read⟩
  -- A declaration without a body is one that another language implements.
  let (decl, tokens) ← withTaken (either plain method <* maybe (phrase (.rule .block)))
  return { decl with stop := stopOf tokens }

/-- Reads one top-level item; a statement is one too. -/
def item : Reader Item :=
  either (Item.package <$> packageClause) <|
  either (Item.imports <$> importDecl) <|
  either (Item.types <$> typeDecl) <|
  either (Item.func <$> funcDecl) <|
  (fun _ => Item.other) <$> phrase (.rule .statement)

/-- Reads items until the end, or until no item or no end of one is found. -/
def itemsWithin : Nat → List Token → List Item × Bool
  | 0, _ => ([], false)
  | limit + 1, tokens =>
    match tokens.dropWhile (·.kind == .terminator) with
    | [] => ([], true)
    | first :: rest =>
      if first.kind == .eof then ([], true)
      else match item (first :: rest) with
        | none => ([], false)
        | some (read, after) =>
          -- The last item may end with the file.
          if (after.head?.map fun next => next.kind == .terminator || next.kind == .eof).getD true
          then
            let (more, complete) := itemsWithin limit after
            (read :: more, complete)
          else ([read], false)

end Scaffold.Go.Reader
