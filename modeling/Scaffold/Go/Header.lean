import Scaffold.Go.SourceFile
import Scaffold.Unicode.Case

/-! The comments at the head of a file: adjacent ones in groups, directives, and the notice. -/

namespace Scaffold.Go

/-- Adjacent comments without a blank line between them, and the text of the first. -/
structure CommentGroup where
  start : Nat
  stop : Nat
  row : Nat
  stopRow : Nat
  first : String
  deriving DecidableEq, Repr, Inhabited

/-- Comments gathered into groups behind a group that is still open. -/
def groupFrom (group : CommentGroup) : List Comment → List CommentGroup
  | [] => [group]
  | comment :: rest =>
    if comment.row ≤ group.stopRow + 1 then
      groupFrom { group with stop := comment.stop, stopRow := comment.stopRow } rest
    else
      group :: groupFrom ⟨comment.start, comment.stop, comment.row, comment.stopRow, comment.text⟩
        rest

/-- Comments gathered into groups. -/
def commentGroups : List Comment → List CommentGroup
  | [] => []
  | comment :: rest =>
    groupFrom ⟨comment.start, comment.stop, comment.row, comment.stopRow, comment.text⟩ rest

/-- Whether a character may stand next to the colon of a directive. -/
def isDirectiveChar (c : Char) : Bool :=
  c.isLower || c.isDigit

/-- Whether the text of a comment is a directive to a tool. -/
def isDirective (comment : String) : Bool :=
  match afterPrefix? ['/', '/'] comment.toList with
  | none => false
  | some body =>
    if "line ".toList.isPrefixOf body then true
    else
      -- A directive has a tool before its first colon and something right behind it.
      let (tool, rest) := leadingRun (· != ':') body
      match rest with
      | _ :: next :: _ => !tool.isEmpty && tool.all isDirectiveChar && isDirectiveChar next
      | _ => false

namespace SourceFile

/-- The groups of comments in front of everything else. -/
def leadingGroups (file : SourceFile) : List CommentGroup :=
  commentGroups file.comments

/-- The copyright notice at the head of a file, if its first group of comments is one. -/
def copyrightNotice? (file : SourceFile) : Option String := do
  let clause ← file.package?
  let group ← file.leadingGroups.head?
  -- A group right above the package clause documents the package.
  if clause.start ≤ group.start || clause.row ≤ group.stopRow + 1 || isDirective group.first then
    none
  else if occursIn "copyright".toList (Unicode.lowercase group.first).toList then
    some (String.ofList (sliceBytes group.start group.stop file.text.toList))
  else none

end SourceFile

end Scaffold.Go
