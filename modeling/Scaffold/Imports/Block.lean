import Scaffold.Imports.Import

/-! The text of an import declaration. -/

namespace Scaffold

/-- One line of a declaration with parentheses. -/
def specLine (needed : Import) : String :=
  "\t" ++ needed.spec ++ "\n"

/-- The imports of each group that has any, sorted. -/
def groupedImports (setting : Option String) (imports : List Import) : List (List Import) :=
  (ImportGroup.all.map fun group =>
    (imports.filter fun needed => importGroup setting needed.path == group)).filter
      (fun group => !group.isEmpty) |>.map Import.sorted

/-- A declaration behind a blank line: one import on its line, several in groups. -/
def importBlock (setting : Option String) (imports : List Import) : String :=
  match imports with
  | [] => ""
  | [single] => "\nimport " ++ single.spec ++ "\n"
  | several =>
    -- A blank line sets the groups apart.
    let groups := (groupedImports setting several).map fun group =>
      String.join (group.map specLine)
    "\nimport (\n" ++ joinStrings "\n" groups ++ ")\n"

end Scaffold
