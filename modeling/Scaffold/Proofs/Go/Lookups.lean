import Scaffold.Go.Resolution

/-! The names that type expressions use, and what resolving an expression is in terms of them: it
looks each name up in turn, and does nothing else but note stray comments. -/

namespace Scaffold.Go

/-- A name that a type expression uses: a plain one, or that of a package in front of another. -/
inductive NameUse
  | plain (name : String) (start : Nat)
  | package (name : String) (start : Nat)
  deriving DecidableEq, Repr

namespace NameUse

def name : NameUse → String
  | .plain name _ | .package name _ => name

/-- The offset of the name. -/
def start : NameUse → Nat
  | .plain _ start | .package _ start => start

end NameUse

mutual

/-- The names that a type expression uses, from left to right. -/
def TypeExpr.uses : TypeExpr → List NameUse
  | .name text start => [.plain text start]
  | .qualified package start _ => [.package package start]
  | .generic base args => base.uses ++ usesInTypes args
  | .pointer elem | .slice elem | .array _ elem | .chan _ elem | .paren elem => elem.uses
  | .map key value => key.uses ++ value.uses
  | .func signature => signature.uses
  | .struct fields => usesInFields fields
  | .interface elems => usesInElems elems
  | .comment _ _ | .approximate _ => []

/-- The names that some type expressions use. -/
def usesInTypes : List TypeExpr → List NameUse
  | [] => []
  | first :: rest => first.uses ++ usesInTypes rest

/-- The names that the types of parameters and results use. -/
def SignatureExpr.uses : SignatureExpr → List NameUse
  | .mk params results => usesInParams params ++ usesInParams results

/-- The names that the types of parameters use. -/
def usesInParams : List ParamExpr → List NameUse
  | [] => []
  | .mk _ type _ _ :: rest => type.uses ++ usesInParams rest

/-- The names that the types of fields use. -/
def usesInFields : List FieldExpr → List NameUse
  | [] => []
  | .named _ type _ :: rest | .embedded _ type _ :: rest => type.uses ++ usesInFields rest

/-- The names that the elements of an interface use; unions are not looked into. -/
def usesInElems : List ElemExpr → List NameUse
  | [] => []
  | .method _ signature :: rest => signature.uses ++ usesInElems rest
  | .embedded type :: rest => type.uses ++ usesInElems rest
  | .union _ :: rest => usesInElems rest

end

/--
A relation between two steps, given the names that they use.

It is kept where nothing happens, and by steps in turn, which use the names of each.
-/
structure IsGraded (related : ∀ {α : Type}, List NameUse → Resolving α → Resolving α → Prop) :
    Prop where
  pure : ∀ {α : Type} (value : α), related [] (Pure.pure value) (Pure.pure value)
  bind : ∀ {α β : Type} {uses more : List NameUse} {step other : Resolving α}
    {next after : α → Resolving β}, related uses step other →
    (∀ value, related more (next value) (after value)) →
    related (uses ++ more) (step >>= next) (other >>= after)

/-- Two tables in which looking up each name is related, and so is noting a stray comment. -/
structure LookUpsRelated (related : ∀ {α : Type}, List NameUse → Resolving α → Resolving α → Prop)
    (table other : NameTable) : Prop where
  plain : ∀ name start,
    related [.plain name start] (table.resolveName name start) (other.resolveName name start)
  package : ∀ package start name, related [.package package start]
    (table.resolveQualified package start name) (other.resolveQualified package start name)
  comment : ∀ start, related [] (reportError table.scope start .strayComment)
    (reportError other.scope start .strayComment)

section Graded

variable {related : ∀ {α : Type}, List NameUse → Resolving α → Resolving α → Prop}
  {table other : NameTable}

/-- Turning the results into others is no step of its own. -/
theorem IsGraded.map (graded : IsGraded related) {α β : Type} {uses : List NameUse}
    {step after : Resolving α} (first : related uses step after) (f : α → β) :
    related uses (step >>= fun value => Pure.pure (f value))
      (after >>= fun value => Pure.pure (f value)) := by
  have both := graded.bind first fun value => graded.pure (f value)
  rwa [List.append_nil] at both

-- One case for each form of an expression, as its names are listed.
mutual

/-- What relates two tables relates all that is resolved in them. -/
theorem TypeExpr.resolve_related (graded : IsGraded related)
    (lookUps : LookUpsRelated related table other) :
    ∀ expr : TypeExpr, related expr.uses (expr.resolve table) (expr.resolve other)
  | .name text start => by
    rw [TypeExpr.resolve, TypeExpr.resolve, TypeExpr.uses]
    exact lookUps.plain text start
  | .qualified package start name => by
    rw [TypeExpr.resolve, TypeExpr.resolve, TypeExpr.uses]
    exact lookUps.package package start name
  | .generic base args => by
    rw [TypeExpr.resolve, TypeExpr.resolve, TypeExpr.uses]
    exact graded.bind (base.resolve_related graded lookUps) fun _ =>
      graded.map (resolveTypes_related graded lookUps args) _
  | .pointer elem | .slice elem | .array _ elem | .chan _ elem => by
    rw [TypeExpr.resolve, TypeExpr.resolve, TypeExpr.uses]
    exact graded.map (elem.resolve_related graded lookUps) _
  | .map key value => by
    rw [TypeExpr.resolve, TypeExpr.resolve, TypeExpr.uses]
    exact graded.bind (key.resolve_related graded lookUps) fun _ =>
      graded.map (value.resolve_related graded lookUps) _
  | .func signature => by
    rw [TypeExpr.resolve, TypeExpr.resolve, TypeExpr.uses]
    exact graded.map (signature.resolve_related graded lookUps) _
  | .struct fields => by
    rw [TypeExpr.resolve, TypeExpr.resolve, TypeExpr.uses]
    exact graded.map (resolveFields_related graded lookUps fields) _
  | .interface elems => by
    rw [TypeExpr.resolve, TypeExpr.resolve, TypeExpr.uses]
    exact graded.map (resolveElems_related graded lookUps elems) _
  | .paren inner => by
    rw [TypeExpr.resolve, TypeExpr.resolve, TypeExpr.uses]
    exact inner.resolve_related graded lookUps
  | .comment text start => by
    rw [TypeExpr.resolve, TypeExpr.resolve, TypeExpr.uses]
    exact graded.map (lookUps.comment start) _
  | .approximate text => by
    rw [TypeExpr.resolve, TypeExpr.resolve, TypeExpr.uses]
    exact graded.pure _

theorem resolveTypes_related (graded : IsGraded related)
    (lookUps : LookUpsRelated related table other) : ∀ types : List TypeExpr,
      related (usesInTypes types) (resolveTypes table types) (resolveTypes other types)
  | [] => by
    rw [resolveTypes, resolveTypes, usesInTypes]
    exact graded.pure _
  | first :: rest => by
    rw [resolveTypes, resolveTypes, usesInTypes]
    exact graded.bind (first.resolve_related graded lookUps) fun _ =>
      graded.map (resolveTypes_related graded lookUps rest) _

theorem SignatureExpr.resolve_related (graded : IsGraded related)
    (lookUps : LookUpsRelated related table other) : ∀ signature : SignatureExpr,
      related signature.uses (signature.resolve table) (signature.resolve other)
  | .mk params results => by
    rw [SignatureExpr.resolve, SignatureExpr.resolve, SignatureExpr.uses]
    exact graded.bind (resolveParams_related graded lookUps params) fun _ =>
      graded.map (resolveParams_related graded lookUps results) _

theorem resolveParams_related (graded : IsGraded related)
    (lookUps : LookUpsRelated related table other) : ∀ params : List ParamExpr,
      related (usesInParams params) (resolveParams table params) (resolveParams other params)
  | [] => by
    rw [resolveParams, resolveParams, usesInParams]
    exact graded.pure _
  | .mk names type start variadic :: rest => by
    rw [resolveParams, resolveParams, usesInParams]
    exact graded.bind (type.resolve_related graded lookUps) fun _ =>
      graded.map (resolveParams_related graded lookUps rest) _

theorem resolveFields_related (graded : IsGraded related)
    (lookUps : LookUpsRelated related table other) : ∀ fields : List FieldExpr,
      related (usesInFields fields) (resolveFields table fields) (resolveFields other fields)
  | [] => by
    rw [resolveFields, resolveFields, usesInFields]
    exact graded.pure _
  | .named _ type _ :: rest | .embedded _ type _ :: rest => by
    rw [resolveFields, resolveFields, usesInFields]
    exact graded.bind (type.resolve_related graded lookUps) fun _ =>
      graded.map (resolveFields_related graded lookUps rest) _

theorem resolveElems_related (graded : IsGraded related)
    (lookUps : LookUpsRelated related table other) : ∀ elems : List ElemExpr,
      related (usesInElems elems) (resolveElems table elems) (resolveElems other elems)
  | [] => by
    rw [resolveElems, resolveElems, usesInElems]
    exact graded.pure _
  | .method _ signature :: rest => by
    rw [resolveElems, resolveElems, usesInElems]
    exact graded.bind (signature.resolve_related graded lookUps) fun _ =>
      graded.map (resolveElems_related graded lookUps rest) _
  | .embedded type :: rest => by
    rw [resolveElems, resolveElems, usesInElems]
    exact graded.bind (type.resolve_related graded lookUps) fun _ =>
      graded.map (resolveElems_related graded lookUps rest) _
  | .union _ :: rest => by
    rw [resolveElems, resolveElems, usesInElems]
    exact resolveElems_related graded lookUps rest

end

end Graded

end Scaffold.Go
