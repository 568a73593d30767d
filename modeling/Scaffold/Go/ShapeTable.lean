import Scaffold.Go.Resolution

/-! The shapes behind the declared types of a package. -/

namespace Scaffold.Go

/-- The shape that a type shows itself, unless it is a defined type or an alias. -/
def ResolvedType.ownShape : ResolvedType → Shape
  | .basic name => .basic name
  | .struct _ => .struct
  | .array _ _ => .array
  | .named type => type.shape
  | .aliased _ _ _ | .param _ | .invalid _ => .unknown
  | _ => .nillable

/-- The shape of a type, following at most `limit` definitions and none of them twice. -/
def shapeWithin (path : String) (definitions : List (String × ResolvedType)) :
    Nat → List String → ResolvedType → Shape
  | 0, _, _ => .unknown
  | limit + 1, visited, type =>
    match type.unalias with
    | .named found =>
      if found.package.path != path then found.shape
      else if visited.contains found.name then .unknown
      else match definitions.lookup found.name with
        | none => .unknown
        | some next => shapeWithin path definitions limit (found.name :: visited) next
    | other => other.ownShape

/-- The shape behind each definition of a package. -/
def shapeTable (path : String) (definitions : List (String × ResolvedType)) :
    List (String × Shape) :=
  -- A chain of definitions without repeats is no longer than the list of them.
  definitions.map fun (name, type) =>
    (name, shapeWithin path definitions (definitions.length + 1) [name] type)

/-- The right-hand side of every declaration, resolved in the order of names. -/
def resolveDefinitions (package : PackageRef) (decls : TypeDecls) :
    TypeDecls → Resolving (List (String × ResolvedType))
  | [] => return []
  | (name, decl) :: rest => do
    let table := nameTable package decls [] decl.scope decl.spec.params
    let type ← if decl.spec.isAlias then table.aliasTarget name
      else some <$> decl.spec.type.resolve table
    let more ← resolveDefinitions package decls rest
    return (type.map fun type => (name, type)).toList ++ more

end Scaffold.Go
