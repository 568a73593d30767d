import Scaffold.Go.DeclarationReader
import Scaffold.Go.Tokens

/-! The outline of a Go file: what stands right below the root of its syntax tree, and where. -/

namespace Scaffold.Go

/-- What can stand right below the root. -/
inductive NodeKind
  | comment
  | terminator
  | item (read : Item)

/-- A node right below the root, and the bytes it covers. -/
structure Node where
  kind : NodeKind
  start : Nat
  stop : Nat

/-- The comments in front of a token as nodes. -/
def Token.commentNodes (token : Token) : List Node :=
  token.comments.map fun comment => ⟨.comment, comment.start, comment.stop⟩

/-- The nodes of some tokens, up to the end of the file or a place where no item begins. -/
def nodesWithin : Nat → List Token → List Node
  | 0, _ => []
  | _, [] => []
  | limit + 1, first :: rest =>
    -- Comments between items are nodes, those inside an item belong to it.
    first.commentNodes ++
      if first.kind == .eof then []
      else if first.kind == .terminator then
        ⟨.terminator, first.start, first.stop⟩ :: nodesWithin limit rest
      else match Reading.withTaken Reader.item (first :: rest) with
        | none => []
        | some ((read, taken), after) =>
          ⟨.item read, first.start, Reader.stopOf taken⟩ :: nodesWithin limit after

/-- The nodes right below the root of the tree of a text, in source order. -/
def outline (text : String) : List Node :=
  let (all, _) := tokens text.toList
  nodesWithin all.length all

/-- The node around a stretch of bytes. -/
def nodeAround? (nodes : List Node) (start stop : Nat) : Option Node :=
  if stop < start then none
  else
    -- The first node that reaches far enough decides, and nothing is found if it begins too late.
    match nodes.find? fun node => stop ≤ node.stop && start < node.stop with
    | none => none
    | some node => if node.start ≤ start then some node else none

end Scaffold.Go
