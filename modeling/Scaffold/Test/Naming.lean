import Scaffold.Search
import Scaffold.Unicode.Case

/-! Names for what a generated test declares. -/

namespace Scaffold

/-- The names a generated test gives its own parameter and loop variable. -/
def reservedNames : List String :=
  ["t", "tt"]

/-- The name of a receiver variable when nothing better is left. -/
def defaultReceiverName : String :=
  "r"

/-- The capitals of a name, its first character among them. -/
def initials : List Char → List Char
  | [] => []
  | first :: rest => first :: rest.filter Unicode.isUppercase

/-- Names to try for a receiver variable, best first and before lower-casing. -/
def receiverCandidates (declared typeName : String) : List String :=
  let own := declared.toList
  let type := typeName.toList
  let fromOwn := if own.isEmpty then [] else [declared, String.ofList (own.take 1)]
  let firstTwo := if 2 ≤ type.length then [String.ofList (type.take 2)] else []
  fromOwn ++ String.ofList (type.take 1) :: firstTwo ++ [String.ofList (initials type)]

/-- The name of the variable that holds the receiver. -/
def receiverVariable (declared typeName : String) : String :=
  -- The first candidate wins that can be declared and clashes with nothing.
  let usable := fun (name : String) => !name.isEmpty && name != "_" && !reservedNames.contains name
  (((receiverCandidates declared typeName).map Unicode.lowercase).find? usable).getD
    defaultReceiverName

/-- The marks tried, in order, in front of clashing names. -/
def clashMarks : List String :=
  ["", "c", "c_", "i", "i_"]

/-- Whether a mark in front of every name avoids all taken names; empty names do not count. -/
def isClear (taken names : List String) (lead : String) : Bool :=
  names.all fun name => name.isEmpty || !taken.contains (lead ++ name)

/-- A mark that keeps the names, put behind it, apart from all taken names. -/
def clashMark (taken names : List String) : String :=
  match clashMarks.find? (isClear taken names) with
  | some mark => mark
  | none =>
    -- A taken name rules out at most one number for each of the names.
    match leastPassing (fun number => isClear taken names ("c" ++ toString number))
        (taken.length * names.length + 1) 2 with
    | some number => "c" ++ toString number
    | none => ""

/-- A test name that is not among the existing ones, numbered from two on if it has to be. -/
def uniqueTestName (base : String) (existing : List String) : String :=
  if existing.contains base then
    -- Each existing name rules out at most one number.
    match leastPassing (fun number => !existing.contains (base ++ "_" ++ toString number))
        (existing.length + 1) 2 with
    | some number => base ++ "_" ++ toString number
    | none => base
  else base

/-- A name with a number behind it, except for the first of a list. -/
def numberedName (base : String) (index : Nat) : String :=
  if index = 0 then base else base ++ toString (index + 1)

/-- The variable for a result of the tested function; only a last result can be the error. -/
def gotName (index count : Nat) (isError : Bool) : String :=
  if index + 1 = count && isError then "gotErr" else numberedName "got" index

/-- The field for the value a result is expected to have. -/
def wantName (index : Nat) : String :=
  numberedName "want" index

end Scaffold
