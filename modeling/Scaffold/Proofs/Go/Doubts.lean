import Scaffold.Proofs.Go.Identity
import Scaffold.Proofs.Go.Receiver
import Scaffold.Proofs.Go.Steps

/-! What a type expression leaves in doubt: where nothing is reported, its type is valid exactly if
no doubt is left open. -/

namespace Scaffold.Go

/-- A part of a type expression on which it hangs whether the type is a valid one. -/
inductive Doubt
  /-- A part that stands for no type, though nothing is reported for it. -/
  | unresolved (text : String)
  /-- An alias, in doubt for what it stands for. -/
  | through (name : String)
  deriving DecidableEq, Repr

/-- What is in sight, as far as it decides on doubts. -/
structure Sight where
  /-- What a plain name leaves in doubt. -/
  doubts : String → List Doubt
  /-- Whether a plain name stands for a defined type, which takes arguments. -/
  takesArgs : String → Bool

/-- The names in sight of a file, with some type parameters. -/
def sightOf (decls : TypeDecls) (scope : FileScope) (params : List String) : Sight where
  doubts name :=
    if params.contains name then []
    else match decls.lookup name with
      | some decl => if decl.spec.isAlias then [.through name] else []
      | none =>
        -- One dot import is taken to declare the name; which of several does cannot be told.
        if (predeclared? name).isNone && 1 < scope.dots.length then [.unresolved name] else []
  takesArgs name :=
    !params.contains name && match decls.lookup name with
      | some decl => !decl.spec.isAlias
      | none => (predeclared? name).isNone && scope.dots.length ≤ 1

section Sight

variable {decls : TypeDecls} (scope : FileScope) {params : List String} {name : String}

/-- A type parameter is never in doubt. -/
theorem sightOf_param (decls : TypeDecls) (held : params.contains name = true) :
    (sightOf decls scope params).doubts name = [] ∧
      (sightOf decls scope params).takesArgs name = false := by
  simp only [sightOf, held]
  exact ⟨rfl, rfl⟩

/-- A declared name is in doubt if it is that of an alias. -/
theorem sightOf_declared {decl : TypeDecl} (fresh : params.contains name = false)
    (found : decls.lookup name = some decl) :
    (sightOf decls scope params).doubts name =
        (if decl.spec.isAlias then [.through name] else []) ∧
      (sightOf decls scope params).takesArgs name = !decl.spec.isAlias := by
  simp only [sightOf, fresh, found]
  exact ⟨rfl, rfl⟩

/-- A predeclared name is never in doubt. -/
theorem sightOf_predeclared {type : ResolvedType} (fresh : params.contains name = false)
    (missing : decls.lookup name = none) (found : predeclared? name = some type) :
    (sightOf decls scope params).doubts name = [] ∧
      (sightOf decls scope params).takesArgs name = false := by
  simp only [sightOf, fresh, missing, found]
  exact ⟨rfl, rfl⟩

/-- Any other name is in doubt if several dot imports may bring it in. -/
theorem sightOf_other (fresh : params.contains name = false)
    (missing : decls.lookup name = none) (free : predeclared? name = none) :
    (sightOf decls scope params).doubts name =
        (if 1 < scope.dots.length then [.unresolved name] else []) ∧
      (sightOf decls scope params).takesArgs name = decide (scope.dots.length ≤ 1) := by
  simp only [sightOf, fresh, missing, free]
  simp

end Sight

/-- Whether an expression stands for a defined type, which takes arguments. -/
def TypeExpr.takesArgs (sight : Sight) : TypeExpr → Bool
  | .name text _ => sight.takesArgs text
  | .qualified _ _ _ => true
  | .generic base _ => base.takesArgs sight
  | .paren inner => inner.takesArgs sight
  | _ => false

mutual

/-- What an expression leaves in doubt. -/
def TypeExpr.doubts (sight : Sight) : TypeExpr → List Doubt
  | .name text _ => sight.doubts text
  | .qualified _ _ _ | .comment _ _ => []
  | .generic base args =>
    -- A defined type is as good as its arguments; those of anything else are dropped.
    if base.takesArgs sight then doubtsInTypes sight args else base.doubts sight
  | .pointer elem | .slice elem | .array _ elem | .chan _ elem | .paren elem => elem.doubts sight
  | .map key value => key.doubts sight ++ value.doubts sight
  | .func signature => signature.doubts sight
  | .struct fields => doubtsInFields sight fields
  | .interface elems => doubtsInElems sight elems
  | .approximate text => [.unresolved text]

/-- What some expressions leave in doubt. -/
def doubtsInTypes (sight : Sight) : List TypeExpr → List Doubt
  | [] => []
  | first :: rest => first.doubts sight ++ doubtsInTypes sight rest

/-- What the types of parameters and results leave in doubt. -/
def SignatureExpr.doubts (sight : Sight) : SignatureExpr → List Doubt
  | .mk params results => doubtsInParams sight params ++ doubtsInParams sight results

/-- What the types of parameters leave in doubt. -/
def doubtsInParams (sight : Sight) : List ParamExpr → List Doubt
  | [] => []
  | .mk _ type _ _ :: rest => type.doubts sight ++ doubtsInParams sight rest

/-- What the types of fields leave in doubt. -/
def doubtsInFields (sight : Sight) : List FieldExpr → List Doubt
  | [] => []
  | .named names type _ :: rest =>
    (if names.isEmpty then [] else type.doubts sight) ++ doubtsInFields sight rest
  | .embedded _ type _ :: rest => type.doubts sight ++ doubtsInFields sight rest

/-- What the elements of an interface leave in doubt; unions are dropped. -/
def doubtsInElems (sight : Sight) : List ElemExpr → List Doubt
  | [] => []
  | .method _ signature :: rest => signature.doubts sight ++ doubtsInElems sight rest
  | .embedded type :: rest => type.doubts sight ++ doubtsInElems sight rest
  | .union _ :: rest => doubtsInElems sight rest

end

/-- What the right-hand side of a declaration leaves in doubt. -/
def TypeDecl.doubts (decls : TypeDecls) (decl : TypeDecl) : List Doubt :=
  decl.spec.type.doubts (sightOf decls decl.scope decl.spec.params)

/-- A declared name that stands for something with an unresolved part, maybe through others. -/
inductive Doubtful (decls : TypeDecls) : String → Prop
  | unresolved {name text : String} {decl : TypeDecl} (found : decls.lookup name = some decl)
      (left : Doubt.unresolved text ∈ decl.doubts decls) : Doubtful decls name
  | through {name other : String} {decl : TypeDecl} (found : decls.lookup name = some decl)
      (left : Doubt.through other ∈ decl.doubts decls) (inner : Doubtful decls other) :
      Doubtful decls name

/-- A doubt that turns out to be right: something in it is unresolved. -/
def Doubt.IsOpen (decls : TypeDecls) : Doubt → Prop
  | .unresolved _ => True
  | .through name => Doubtful decls name

/-- None of some doubts turns out to be right. -/
def AreClosed (decls : TypeDecls) (doubts : List Doubt) : Prop :=
  ∀ doubt ∈ doubts, ¬ doubt.IsOpen decls

section Closed

variable {decls : TypeDecls}

@[simp] theorem areClosed_nil : AreClosed decls [] := by
  simp [AreClosed]

@[simp] theorem areClosed_append {first second : List Doubt} :
    AreClosed decls (first ++ second) ↔ AreClosed decls first ∧ AreClosed decls second :=
  List.forall_mem_append

@[simp] theorem areClosed_unresolved (text : String) :
    ¬ AreClosed decls [.unresolved text] := by
  simp [AreClosed, Doubt.IsOpen]

@[simp] theorem areClosed_through (name : String) :
    AreClosed decls [.through name] ↔ ¬ Doubtful decls name := by
  simp [AreClosed, Doubt.IsOpen]

/-- A declared name is doubtful if its right-hand side leaves a doubt open. -/
theorem doubtful_iff {name : String} {decl : TypeDecl} (found : decls.lookup name = some decl) :
    Doubtful decls name ↔ ¬ AreClosed decls (decl.doubts decls) := by
  constructor
  · intro doubtful closed
    cases doubtful with
    | unresolved held left =>
      rw [found] at held
      cases held
      exact closed _ left trivial
    | through held left inner =>
      rw [found] at held
      cases held
      exact closed _ left inner
  · intro left
    -- Some doubt of the right-hand side is open, by itself or through a further name.
    simp only [AreClosed, not_forall, not_not] at left
    obtain ⟨doubt, left, right⟩ := left
    cases doubt with
    | unresolved text => exact .unresolved found left
    | through other => exact .through found left right

end Closed

section Valid

@[simp] theorem validVars_append (first second : List Var) :
    validVars (first ++ second) = (validVars first && validVars second) := by
  induction first with
  | nil => rfl
  | cons var rest ih =>
    obtain ⟨name, type⟩ := var
    rw [List.cons_append, validVars, validVars, ih, Bool.and_assoc]

@[simp] theorem validFields_append (first second : List StructField) :
    validFields (first ++ second) = (validFields first && validFields second) := by
  induction first with
  | nil => rfl
  | cons field rest ih =>
    obtain ⟨name, type⟩ := field
    rw [List.cons_append, validFields, validFields, ih, Bool.and_assoc]

/-- Names that share a type are valid with it. -/
theorem validVars_shared {names : List String} (some : names.isEmpty = false)
    (type : ResolvedType) : validVars (names.map fun name => ⟨name, type⟩) = type.isValid := by
  induction names with
  | nil => cases some
  | cons name rest ih =>
    rw [List.map_cons, validVars]
    cases rest with
    | nil => simp [validVars]
    | cons next rest => rw [ih rfl, Bool.and_self]

theorem validFields_shared {names : List String} (some : names.isEmpty = false)
    (type : ResolvedType) :
    validFields (names.map fun name => ⟨.some name, type⟩) = type.isValid := by
  induction names with
  | nil => cases some
  | cons name rest ih =>
    rw [List.map_cons, validFields]
    cases rest with
    | nil => simp [validFields]
    | cons next rest => rw [ih rfl, Bool.and_self]

end Valid

/-- Aliases are known by targets that are valid exactly if nothing doubtful is behind them. -/
def AreSound (decls : TypeDecls) (aliases : List (String × Option ResolvedType)) : Prop :=
  ∀ name type, aliases.lookup name = some (some type) →
    (type.isValid = true ↔ ¬ Doubtful decls name)

/-- A step that, if nothing is reported up to its end, keeps aliases sound and gives what it
should. -/
structure Traces {α : Type} (decls : TypeDecls) (step : Resolving α) (good : α → Prop) : Prop where
  grows : Grows step
  traces : ∀ before, (step.run before).2.errors = [] → AreSound decls before.aliases →
    AreSound decls (step.run before).2.aliases ∧ good (step.run before).1

namespace Traces

variable {α β γ : Type} {decls : TypeDecls} {step : Resolving α} {more : Resolving β}
  {next : α → Resolving β} {good : α → Prop} {fine : β → Prop} {whole : γ → Prop}

theorem pure {value : α} (holds : good value) : Traces decls (Pure.pure value) good :=
  ⟨grows_isStepwise.pure value, fun _ _ sound => ⟨sound, holds⟩⟩

/-- A step that reports something may give anything. -/
theorem report (scope : FileScope) (offset : Nat) (error : TypeError) (value : α) :
    Traces decls (do reportError scope offset error; return value) good := by
  refine ⟨grows_isStepwise.map (grows_report scope offset error) _, ?_⟩
  intro before none
  -- The report itself is an error, so the case without errors does not arise.
  have grown : ((do reportError scope offset error; return value).run before).2.errors =
      before.errors ++ [scope.diagnostic offset error] := rfl
  rw [none] at grown
  exact absurd grown.symm (by simp)

/-- Behind a step that gives what it should, the next one may rely on that. -/
theorem bind (first : Traces decls step good) (grows : ∀ value, Grows (next value))
    (second : ∀ value, good value → Traces decls (next value) fine) :
    Traces decls (step >>= next) fine where
  grows := grows_isStepwise.bind first.grows grows
  traces before none sound := by
    -- Errors only grow, so the first step has reported nothing either.
    have quiet : (step.run before).2.errors = [] := by
      have kept := grows (step.run before).1 (step.run before).2
      exact List.prefix_nil.mp (none ▸ kept)
    obtain ⟨between, holds⟩ := first.traces before quiet sound
    exact (second _ holds).traces (step.run before).2 none between

theorem map (first : Traces decls step good) (f : α → β)
    (holds : ∀ value, good value → fine (f value)) :
    Traces decls (step >>= fun value => Pure.pure (f value)) fine :=
  first.bind (fun _ => grows_isStepwise.pure _) fun value given => .pure (holds value given)

/-- Two steps, neither of which needs what the other gives. -/
theorem both (first : Traces decls step good) (second : Traces decls more fine) (f : α → β → γ)
    (holds : ∀ value other, good value → fine other → whole (f value other)) :
    Traces decls (do let value ← step; let other ← more; return f value other) whole :=
  first.bind (fun _ => grows_isStepwise.map second.grows _) fun value given =>
    second.map _ fun other also => holds value other given also

theorem imp {better : α → Prop} (first : Traces decls step good)
    (holds : ∀ value, good value → better value) : Traces decls step better :=
  ⟨first.grows, fun before none sound => (first.traces before none sound).imp_right (holds _)⟩

end Traces

/-- A type that is valid exactly if an expression leaves no doubt open. -/
structure ResolvedType.IsTracedTo (type : ResolvedType) (decls : TypeDecls) (sight : Sight)
    (expr : TypeExpr) : Prop where
  valid : type.isValid = true ↔ AreClosed decls (expr.doubts sight)
  takes : type.isNamed = expr.takesArgs sight

section Resolve

variable {table : NameTable}

/-- What is in sight of a table. -/
def NameTable.sight (table : NameTable) : Sight :=
  sightOf table.decls table.scope table.params

/-- The targets of declared aliases are valid exactly if nothing doubtful is behind them. -/
def NameTable.IsTraced (table : NameTable) : Prop :=
  ∀ name decl, table.decls.lookup name = some decl → decl.spec.isAlias = true →
    Traces table.decls (table.aliasTarget name) fun target =>
      ∀ type ∈ target, (type.isValid = true ↔ ¬ Doubtful table.decls name)

/-- A predeclared type is valid and takes no arguments. -/
theorem isValid_of_predeclared {name : String} {type : ResolvedType}
    (found : predeclared? name = some type) : type.isValid = true ∧ type.isNamed = false := by
  unfold predeclared? at found
  split at found
  · cases found; exact ⟨rfl, rfl⟩
  · split at found
    · cases found; exact ⟨rfl, rfl⟩
    · split at found <;> cases found
      exact ⟨rfl, rfl⟩

/-- A declared name stands for a valid type unless it is an alias of a doubtful one. -/
theorem declared_traces (traced : table.IsTraced) {name : String} {decl : TypeDecl}
    (fresh : table.params.contains name = false) (found : table.decls.lookup name = some decl)
    (start : Nat) :
    Traces table.decls (table.declared name start decl) fun type =>
      type.IsTracedTo table.decls table.sight (.name name start) := by
  obtain ⟨doubts, takes⟩ := sightOf_declared table.scope fresh found
  unfold NameTable.declared
  split
  case isTrue second =>
    -- An alias is as valid as its target, if that is known.
    rw [if_pos second] at doubts
    rw [second] at takes
    refine (traced name decl found second).bind (fun target => ?_) fun target same => ?_
    · split
      · exact grows_isStepwise.pure _
      · exact grows_isStepwise.map
          (grows_report table.scope start (.recursiveAlias name)) _
    · split
      · rename_i type
        refine .pure ⟨?_, takes.symm⟩
        rw [ResolvedType.isValid, TypeExpr.doubts, NameTable.sight, doubts, areClosed_through]
        exact same type rfl
      · exact .report table.scope start (.recursiveAlias name) _
  case isFalse first =>
    -- A defined type is valid, whatever it is defined as.
    rw [if_neg first] at doubts
    rw [eq_false_of_ne_true first] at takes
    refine .pure ⟨?_, takes.symm⟩
    rw [TypeExpr.doubts, NameTable.sight, doubts]
    exact iff_of_true rfl areClosed_nil

/-- A name that nothing declares is reported, taken from a dot import, or left in doubt. -/
theorem undeclared_traces {name : String} (fresh : table.params.contains name = false)
    (missing : table.decls.lookup name = none) (free : predeclared? name = none) (start : Nat) :
    Traces table.decls (table.undeclared name start) fun type =>
      type.IsTracedTo table.decls table.sight (.name name start) := by
  obtain ⟨doubts, takes⟩ := sightOf_other table.scope fresh missing free
  unfold NameTable.undeclared
  split
  case h_1 => exact .report table.scope start (.undefined name) _
  case h_2 package one =>
    rw [one] at doubts takes
    refine .pure ⟨?_, takes.symm⟩
    rw [TypeExpr.doubts, NameTable.sight, doubts]
    exact iff_of_true rfl areClosed_nil
  case h_3 none several =>
    -- Neither none nor one: there are several dot imports, and the name stays in doubt.
    have many : 1 < table.scope.dots.length := by
      match listed : table.scope.dots with
      | [] => exact absurd listed none
      | [package] => exact absurd listed (several package)
      | _ :: _ :: _ => simp
    rw [if_pos many] at doubts
    rw [decide_eq_false (not_le.mpr many)] at takes
    refine .pure ⟨?_, takes.symm⟩
    rw [TypeExpr.doubts, NameTable.sight, doubts]
    exact iff_of_false Bool.false_ne_true (areClosed_unresolved name)

/-- A plain name stands for a valid type unless it is left in doubt. -/
theorem resolveName_traces (traced : table.IsTraced) (name : String) (start : Nat) :
    Traces table.decls (table.resolveName name start) fun type =>
      type.IsTracedTo table.decls table.sight (.name name start) := by
  unfold NameTable.resolveName
  split
  case isTrue held =>
    obtain ⟨doubts, takes⟩ := sightOf_param table.scope table.decls held
    refine .pure ⟨?_, takes.symm⟩
    rw [TypeExpr.doubts, NameTable.sight, doubts]
    exact iff_of_true rfl areClosed_nil
  case isFalse fresh =>
    have fresh := eq_false_of_ne_true fresh
    split
    case h_1 decl found => exact declared_traces traced fresh found start
    case h_2 missing =>
      split
      case h_1 type found =>
        obtain ⟨valid, other⟩ := isValid_of_predeclared found
        obtain ⟨doubts, takes⟩ := sightOf_predeclared table.scope fresh missing found
        refine .pure ⟨?_, other.trans takes.symm⟩
        rw [TypeExpr.doubts, NameTable.sight, doubts]
        exact iff_of_true valid areClosed_nil
      case h_2 free => exact undeclared_traces fresh missing free start

/-- A name behind that of a package stands for a valid type if the package is imported. -/
theorem resolveQualified_traces (table : NameTable) (package : String) (start : Nat)
    (name : String) :
    Traces table.decls (table.resolveQualified package start name) fun type =>
      type.IsTracedTo table.decls table.sight (.qualified package start name) := by
  unfold NameTable.resolveQualified
  split
  · refine .pure ⟨?_, rfl⟩
    simp [foreignType, ResolvedType.isValid, NamedType.isValid, validTypes, TypeExpr.doubts]
  · exact .report table.scope start (.undefined package) _

/-- Arguments are as valid as what they are given to, if that takes any. -/
theorem isValid_withArgs (type : ResolvedType) (args : List ResolvedType) :
    (type.withArgs args).isValid =
      if type.isNamed then validTypes args else type.isValid := by
  cases type <;> rfl

theorem isNamed_withArgs (type : ResolvedType) (args : List ResolvedType) :
    (type.withArgs args).isNamed = type.isNamed := by
  cases type <;> rfl

-- One case for each form of an expression: it is as valid as its parts.
mutual

/-- An expression stands for a type that is valid exactly if it leaves no doubt open. -/
theorem TypeExpr.resolve_traces (traced : table.IsTraced) : ∀ expr : TypeExpr,
    Traces table.decls (expr.resolve table) fun type =>
      type.IsTracedTo table.decls table.sight expr
  | .name text start => by
    rw [TypeExpr.resolve]
    exact resolveName_traces traced text start
  | .qualified package start name => by
    rw [TypeExpr.resolve]
    exact resolveQualified_traces table package start name
  | .generic base args => by
    rw [TypeExpr.resolve]
    refine (base.resolve_traces traced).both (resolveTypes_traces traced args) _ ?_
    rintro type types ⟨valid, takes⟩ given
    refine ⟨?_, (isNamed_withArgs type types).trans takes⟩
    -- Whether the base takes the arguments decides on both sides what is looked at.
    rw [isValid_withArgs, takes, TypeExpr.doubts]
    cases named : base.takesArgs table.sight with
    | true => exact given
    | false => exact valid
  | .pointer elem => by
    rw [TypeExpr.resolve]
    exact (elem.resolve_traces traced).map _ fun type given => ⟨given.valid, rfl⟩
  | .slice elem => by
    rw [TypeExpr.resolve]
    exact (elem.resolve_traces traced).map _ fun type given => ⟨given.valid, rfl⟩
  | .array length elem => by
    rw [TypeExpr.resolve]
    exact (elem.resolve_traces traced).map _ fun type given => ⟨given.valid, rfl⟩
  | .map key value => by
    rw [TypeExpr.resolve]
    refine (key.resolve_traces traced).both (value.resolve_traces traced) _ ?_
    rintro first second ⟨keyed, _⟩ ⟨valued, _⟩
    refine ⟨?_, rfl⟩
    rw [ResolvedType.isValid, Bool.and_eq_true, TypeExpr.doubts, areClosed_append, keyed, valued]
  | .chan dir elem => by
    rw [TypeExpr.resolve]
    exact (elem.resolve_traces traced).map _ fun type given => ⟨given.valid, rfl⟩
  | .func signature => by
    rw [TypeExpr.resolve]
    exact (signature.resolve_traces traced).map _ fun resolved given => ⟨given, rfl⟩
  | .struct fields => by
    rw [TypeExpr.resolve]
    exact (resolveFields_traces traced fields).map _ fun resolved given => ⟨given, rfl⟩
  | .interface elems => by
    rw [TypeExpr.resolve]
    exact (resolveElems_traces traced elems).map _ fun resolved given => ⟨given, rfl⟩
  | .paren inner => by
    rw [TypeExpr.resolve]
    exact (inner.resolve_traces traced).imp fun type given => ⟨given.valid, given.takes⟩
  | .comment text start => by
    rw [TypeExpr.resolve]
    exact .report table.scope start .strayComment _
  | .approximate text => by
    rw [TypeExpr.resolve]
    refine .pure ⟨?_, rfl⟩
    rw [TypeExpr.doubts]
    exact iff_of_false Bool.false_ne_true (areClosed_unresolved text)

theorem resolveTypes_traces (traced : table.IsTraced) : ∀ types : List TypeExpr,
    Traces table.decls (resolveTypes table types) fun resolved =>
      (validTypes resolved = true ↔ AreClosed table.decls (doubtsInTypes table.sight types))
  | [] => by
    rw [resolveTypes]
    exact .pure (by simp [validTypes, doubtsInTypes])
  | first :: rest => by
    rw [resolveTypes]
    refine (first.resolve_traces traced).both (resolveTypes_traces traced rest) _ ?_
    rintro type types ⟨valid, _⟩ given
    rw [validTypes, Bool.and_eq_true, doubtsInTypes, areClosed_append, valid, given]

theorem SignatureExpr.resolve_traces (traced : table.IsTraced) : ∀ signature : SignatureExpr,
    Traces table.decls (signature.resolve table) fun resolved =>
      (resolved.isValid = true ↔ AreClosed table.decls (signature.doubts table.sight))
  | .mk params results => by
    rw [SignatureExpr.resolve]
    refine (resolveParams_traces traced params).both (resolveParams_traces traced results) _ ?_
    intro taken given first second
    rw [Signature.isValid, Bool.and_eq_true, SignatureExpr.doubts, areClosed_append, first, second]

theorem resolveParams_traces (traced : table.IsTraced) : ∀ params : List ParamExpr,
    Traces table.decls (resolveParams table params) fun vars =>
      (validVars vars = true ↔ AreClosed table.decls (doubtsInParams table.sight params))
  | [] => by
    rw [resolveParams]
    exact .pure (by simp [validVars, doubtsInParams])
  | .mk names type start variadic :: rest => by
    rw [resolveParams]
    refine (type.resolve_traces traced).both (resolveParams_traces traced rest) _ ?_
    rintro resolved vars ⟨valid, _⟩ given
    rw [validVars_append, Bool.and_eq_true, doubtsInParams, areClosed_append, ← valid, given]
    -- However many names share the type, and spread or not, it is looked at once.
    have own : validVars (if variadic then [⟨names.headD "", .slice resolved⟩]
        else if names.isEmpty then [⟨"", resolved⟩]
        else names.map fun name => ⟨name, resolved⟩) = resolved.isValid := by
      split
      · simp [validVars, ResolvedType.isValid]
      · split
        · simp [validVars]
        · exact validVars_shared (eq_false_of_ne_true ‹_›) resolved
    rw [own]

theorem resolveFields_traces (traced : table.IsTraced) : ∀ fields : List FieldExpr,
    Traces table.decls (resolveFields table fields) fun resolved =>
      (validFields resolved = true ↔ AreClosed table.decls (doubtsInFields table.sight fields))
  | [] => by
    rw [resolveFields]
    exact .pure (by simp [validFields, doubtsInFields])
  | .named names type _ :: rest => by
    rw [resolveFields]
    refine (type.resolve_traces traced).both (resolveFields_traces traced rest) _ ?_
    rintro resolved fields ⟨valid, _⟩ given
    rw [validFields_append, Bool.and_eq_true, doubtsInFields, areClosed_append, given]
    -- Fields without a name are none at all, and their type is dropped.
    cases none : names.isEmpty with
    | true => simp [List.isEmpty_iff.mp none, validFields]
    | false => rw [validFields_shared none, valid, if_neg Bool.false_ne_true]
  | .embedded pointer type _ :: rest => by
    rw [resolveFields]
    refine (type.resolve_traces traced).both (resolveFields_traces traced rest) _ ?_
    rintro resolved fields ⟨valid, _⟩ given
    have own : (if pointer then .pointer resolved else resolved : ResolvedType).isValid =
        resolved.isValid := by
      cases pointer <;> rfl
    rw [validFields, own, Bool.and_eq_true, doubtsInFields, areClosed_append, valid, given]

theorem resolveElems_traces (traced : table.IsTraced) : ∀ elems : List ElemExpr,
    Traces table.decls (resolveElems table elems) fun resolved =>
      (validElems resolved = true ↔ AreClosed table.decls (doubtsInElems table.sight elems))
  | [] => by
    rw [resolveElems]
    exact .pure (by simp [validElems, doubtsInElems])
  | .method name signature :: rest => by
    rw [resolveElems]
    refine (signature.resolve_traces traced).both (resolveElems_traces traced rest) _ ?_
    intro resolved elems first second
    rw [validElems, Bool.and_eq_true, doubtsInElems, areClosed_append, first, second]
  | .embedded type :: rest => by
    rw [resolveElems]
    refine (type.resolve_traces traced).both (resolveElems_traces traced rest) _ ?_
    rintro resolved elems ⟨valid, _⟩ given
    rw [validElems, Bool.and_eq_true, doubtsInElems, areClosed_append, valid, given]
  | .union types :: rest => by
    rw [resolveElems]
    exact (resolveElems_traces traced rest).imp fun elems given => by rwa [doubtsInElems]

end

end Resolve

end Scaffold.Go
