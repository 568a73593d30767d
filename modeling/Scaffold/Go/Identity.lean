import Scaffold.Go.ResolvedType

/-! When two types are the same type. -/

namespace Scaffold.Go

/-- The name a basic type goes by, two of them being second names of others. -/
def canonicalBasic (name : String) : String :=
  if name == "byte" then "uint8" else if name == "rune" then "int32" else name

mutual

/-- Whether two types are identical; aliases count as what they stand for. -/
def identical : ResolvedType → ResolvedType → Bool
  | .aliased _ _ target, other => identical target other
  | .basic first, other =>
    match other.unalias with
    | .basic second => canonicalBasic first == canonicalBasic second
    | _ => false
  | .error, other =>
    match other.unalias with
    | .error => true
    | _ => false
  | .any, other =>
    match other.unalias with
    | .any => true
    | .interface elems => elems.isEmpty
    | _ => false
  | .named first, other =>
    match other.unalias with
    | .named second => identicalNamed first second
    | _ => false
  | .param first, other =>
    match other.unalias with
    | .param second => first == second
    | _ => false
  | .pointer first, other =>
    match other.unalias with
    | .pointer second => identical first second
    | _ => false
  | .slice first, other =>
    match other.unalias with
    | .slice second => identical first second
    | _ => false
  | .array length first, other =>
    match other.unalias with
    | .array otherLength second => length == otherLength && identical first second
    | _ => false
  | .map key value, other =>
    match other.unalias with
    | .map otherKey otherValue => identical key otherKey && identical value otherValue
    | _ => false
  | .chan dir first, other =>
    match other.unalias with
    | .chan otherDir second => dir == otherDir && identical first second
    | _ => false
  | .func first, other =>
    match other.unalias with
    | .func second => identicalSignatures first second
    | _ => false
  | .struct fields, other =>
    match other.unalias with
    | .struct others => identicalFields fields others
    | _ => false
  | .interface elems, other =>
    match other.unalias with
    | .any => elems.isEmpty
    | .interface others => identicalElems elems others
    | _ => false
  | .invalid _, _ => false

/-- Whether two defined types are the same one with identical arguments. -/
def identicalNamed : NamedType → NamedType → Bool
  | ⟨package, name, args, _⟩, second =>
    package.path == second.package.path && name == second.name
      && identicalTypes args second.args

/-- Whether two lists hold identical types in the same order. -/
def identicalTypes : List ResolvedType → List ResolvedType → Bool
  | [], others => others.isEmpty
  | first :: rest, others =>
    match others with
    | [] => false
    | second :: others => identical first second && identicalTypes rest others

/-- Whether two functions take and give identical types. -/
def identicalSignatures : Signature → Signature → Bool
  | ⟨params, results, variadic⟩, second =>
    variadic == second.variadic && identicalVars params second.params
      && identicalVars results second.results

/-- Whether variables have identical types in the same order; their names do not matter. -/
def identicalVars : List Var → List Var → Bool
  | [], others => others.isEmpty
  | ⟨_, first⟩ :: rest, others =>
    match others with
    | [] => false
    | second :: others => identical first second.type && identicalVars rest others

/-- Whether fields have the same names and identical types in the same order. -/
def identicalFields : List StructField → List StructField → Bool
  | [], others => others.isEmpty
  | ⟨name, first⟩ :: rest, others =>
    match others with
    | [] => false
    | second :: others =>
      name == second.name && identical first second.type && identicalFields rest others

/-- Whether elements are the same methods and identical embedded types in the same order. -/
def identicalElems : List InterfaceElem → List InterfaceElem → Bool
  | [], others => others.isEmpty
  | .method name first :: rest, others =>
    match others with
    | .method otherName second :: others =>
      name == otherName && identicalSignatures first second && identicalElems rest others
    | _ => false
  | .embedded first :: rest, others =>
    match others with
    | .embedded second :: others => identical first second && identicalElems rest others
    | _ => false

end

end Scaffold.Go
