/-! Values of settings files, and tables that grow line by line without being defined twice. -/

namespace Scaffold.Toml

/-- How a table came to be, which decides what may still be added to it. -/
inductive TableKind
  /-- Written between braces. -/
  | braced
  /-- Mentioned on the way to a table deeper inside. -/
  | implied
  /-- Mentioned in a key with dots. -/
  | dotted
  /-- Given a heading of its own, as the whole file is. -/
  | headed
  deriving DecidableEq, Repr

/-- A value; what is not text is kept as it is written. -/
inductive Value
  | text (value : String)
  | number (spelling : String)
  | truth (value : Bool)
  | date (spelling : String)
  | list (items : List Value)
  | table (kind : TableKind) (entries : List (String × Value))
  /-- Tables gathered under one heading that is written once for each of them. -/
  | tables (items : List (List (String × Value)))

/-- The keys of a table with their values, in the order they were written. -/
abbrev Entries := List (String × Value)

namespace Entries

/-- Replaces the value of a key that is there. -/
def replace (key : String) (value : Value) (entries : Entries) : Entries :=
  entries.map fun (other, held) => if other == key then (other, value) else (other, held)

/-- Adds a key, unless it is there already. -/
def add? (key : String) (value : Value) (entries : Entries) : Option Entries :=
  if (entries.lookup key).isSome then none else some (entries ++ [(key, value)])

/-- Changes the table at the end of a path, along which missing tables are made. -/
def change? (dots : Bool) (change : TableKind → Entries → Option Entries) :
    List String → TableKind → Entries → Option Entries
  | [], kind, entries => change kind entries
  | key :: path, _, entries =>
    let made := if dots then TableKind.dotted else .implied
    match entries.lookup key with
    | none => do entries.add? key (.table made (← change? dots change path made []))
    | some (.table kind inner) =>
      -- Dots do not reach into a table with a heading, and nothing into one between braces.
      if kind == .braced || (dots && kind == .headed) then none
      else do return entries.replace key (.table kind (← change? dots change path kind inner))
    | some (.tables items) => do
      let last ← items.getLast?
      let changed ← change? dots change path .headed last
      return entries.replace key (.tables (items.dropLast ++ [changed]))
    | some _ => none

/-- Adds a value under a key with dots; tables with and without dots are not mixed. -/
def put? (path : List String) (key : String) (value : Value) (kind : TableKind)
    (entries : Entries) : Option Entries :=
  let place (kind : TableKind) (entries : Entries) : Option Entries :=
    if (kind == .dotted) == path.isEmpty then none else entries.add? key value
  entries.change? true place path kind

/-- Opens the table under a heading, which may have been mentioned but not defined. -/
def open? (path : List String) (key : String) (entries : Entries) : Option Entries :=
  let place (_ : TableKind) (entries : Entries) : Option Entries :=
    match entries.lookup key with
    | none => entries.add? key (.table .headed [])
    | some (.table .implied inner) => some (entries.replace key (.table .headed inner))
    | some _ => none
  entries.change? false place path .headed

/-- Opens one more table under a heading for several. -/
def openNext? (path : List String) (key : String) (entries : Entries) : Option Entries :=
  let place (_ : TableKind) (entries : Entries) : Option Entries :=
    match entries.lookup key with
    | none => entries.add? key (.tables [[]])
    | some (.tables items) => some (entries.replace key (.tables (items ++ [[]])))
    | some _ => none
  entries.change? false place path .headed

end Entries

end Scaffold.Toml
