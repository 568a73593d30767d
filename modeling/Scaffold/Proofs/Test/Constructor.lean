import Mathlib.Data.List.Pairwise
import Scaffold.Proofs.Go.FileOrder
import Scaffold.Proofs.Go.Identity
import Scaffold.Test.Constructor

/-! Which constructor is found: it depends on names and on identical types, not on any order. -/

namespace Scaffold

open Go

section Selection

variable {α : Type} (fits preferred : α → Bool)

/-- A selection that gives way to what is preferred ends with the last of that, or keeps the first. -/
theorem foldl_select (xs : List α) (start : Option α) :
    xs.foldl (fun selected x =>
      if !fits x then selected
      else if selected.isNone || preferred x then some x
      else selected) start =
      ((xs.filter fits).filter preferred).getLast?.or (start.or (xs.filter fits).head?) := by
  -- What was selected before is all that the rest of the list has to know.
  induction xs generalizing start with
  | nil => cases start <;> rfl
  | cons x rest ih =>
    rw [List.foldl_cons, ih]
    by_cases fit : fits x = true
    · rw [List.filter_cons_of_pos fit, if_neg (by simp [fit])]
      by_cases prefer : preferred x = true
      · -- A preferred element is the result unless another one follows.
        rw [List.filter_cons_of_pos prefer, if_pos (by simp [prefer]), List.getLast?_cons]
        cases ((rest.filter fits).filter preferred).getLast? <;> rfl
      · rw [List.filter_cons_of_neg prefer]
        cases start with
        | none => rfl
        | some held => simp [prefer]
    · rw [List.filter_cons_of_neg fit, if_pos (by simpa using fit)]

end Selection

section Found

variable {functions : List Function} {wanted : NamedType} {typeName : String} {external : Bool}

/-- The functions that make a wanted type, by name. -/
def makersOf (functions : List Function) (wanted : NamedType) (external : Bool) : List Function :=
  (Function.byName functions).filter fun function => isConstructorFor function wanted external

/-- Whether a function is named after a type, in whatever case. -/
def isNamedAfter (typeName : String) (function : Function) : Bool :=
  sameIgnoringCase function.name ("new" ++ typeName)

/-- The constructor found is the last one named after the type, or else the first one. -/
theorem findConstructor_eq : findConstructor functions wanted typeName external =
    ((makersOf functions wanted external).filter (isNamedAfter typeName)).getLast?.or
      (makersOf functions wanted external).head? :=
  foldl_select (fun function => isConstructorFor function wanted external)
    (isNamedAfter typeName) _ none

theorem mem_makersOf {function : Function} : function ∈ makersOf functions wanted external ↔
    function ∈ functions ∧ isConstructorFor function wanted external = true := by
  rw [makersOf, List.mem_filter, Function.byName, (sortOrdered_perm _ functions).mem_iff]

/-- The makers of a type stand in the order of their names. -/
theorem makersOf_pairwise (functions : List Function) (wanted : NamedType) (external : Bool) :
    (makersOf functions wanted external).Pairwise fun first second => first.name ≤ second.name :=
  List.Pairwise.filter _ (List.pairwise_map.mp (byName_pairwise functions))

/-- The function that a test makes a receiver with is one of those given, and makes it. -/
theorem findConstructor_eq_some {made : Function}
    (found : findConstructor functions wanted typeName external = some made) :
    made ∈ functions ∧ isConstructorFor made wanted external = true := by
  rw [findConstructor_eq, Option.or_eq_some_iff] at found
  apply mem_makersOf.mp
  rcases found with last | ⟨-, head⟩
  · exact (List.mem_filter.mp (List.mem_of_getLast? last)).1
  · exact List.mem_of_head? head

/-- Nothing is found exactly if nothing makes the type. -/
theorem findConstructor_eq_none_iff : findConstructor functions wanted typeName external = none ↔
    ∀ function ∈ functions, isConstructorFor function wanted external = false := by
  rw [findConstructor_eq, Option.or_eq_none_iff, List.head?_eq_none_iff]
  constructor
  · rintro ⟨-, none⟩ function member
    by_contra makes
    have maker := mem_makersOf.mpr ⟨member, Bool.not_eq_false _ ▸ makes⟩
    rw [none] at maker
    cases maker
  · intro all
    have none : makersOf functions wanted external = [] := by
      rw [List.eq_nil_iff_forall_not_mem]
      intro function maker
      obtain ⟨member, makes⟩ := mem_makersOf.mp maker
      rw [all function member] at makes
      cases makes
    exact ⟨by rw [none]; rfl, none⟩

/-- With functions of different names, the order they are given in does not matter. -/
theorem byName_eq_of_perm {others : List Function} (distinct : (functions.map Function.name).Nodup)
    (perm : functions.Perm others) : Function.byName functions = Function.byName others := by
  obtain ⟨same, -⟩ := byName_perm perm
  refine same.eq_of_pairwise (fun first second held held' below above => ?_)
    (List.pairwise_map.mp (byName_pairwise functions))
    (List.pairwise_map.mp (byName_pairwise others))
  -- Functions of one name are one function.
  have member := (sortOrdered_perm _ functions).mem_iff.mp held
  have member' := perm.mem_iff.mpr ((sortOrdered_perm _ others).mem_iff.mp held')
  exact List.inj_on_of_nodup_map distinct member member' (le_antisymm below above)

/--
The maker of a type that a test is to call.

It has the greatest name of those named after the type, or the least name of all if there are none.
-/
structure IsChosen (functions : List Function) (wanted : NamedType) (typeName : String)
    (external : Bool) (made : Function) : Prop where
  member : made ∈ functions
  makes : isConstructorFor made wanted external = true
  ranks : (isNamedAfter typeName made = true ∧
      ∀ other ∈ functions, isConstructorFor other wanted external = true →
        isNamedAfter typeName other = true → other.name ≤ made.name) ∨
    (∀ other ∈ functions, isConstructorFor other wanted external = true →
      isNamedAfter typeName other = false ∧ made.name ≤ other.name)

/-- What is found is to be called. -/
theorem isChosen_of_found {made : Function}
    (found : findConstructor functions wanted typeName external = some made) :
    IsChosen functions wanted typeName external made := by
  obtain ⟨member, makes⟩ := findConstructor_eq_some found
  refine ⟨member, makes, ?_⟩
  have ordered := makersOf_pairwise functions wanted external
  rw [findConstructor_eq, Option.or_eq_some_iff] at found
  rcases found with last | ⟨none, head⟩
  · -- The last one named after the type comes behind all others of those.
    left
    refine ⟨(List.mem_filter.mp (List.mem_of_getLast? last)).2, ?_⟩
    intro other among fits named
    have maker : other ∈ (makersOf functions wanted external).filter (isNamedAfter typeName) :=
      List.mem_filter.mpr ⟨mem_makersOf.mpr ⟨among, fits⟩, named⟩
    have greatest := (ordered.filter (isNamedAfter typeName)).rel_getLast_of_rel_getLast_getLast
      maker (le_refl _)
    rwa [(List.getLast_eq_iff_getLast?_eq_some _).mpr last] at greatest
  · -- None is named after the type, and the first one comes in front of all others.
    right
    intro other among fits
    have maker := mem_makersOf.mpr ⟨among, fits⟩
    constructor
    · have unnamed := List.filter_eq_nil_iff.mp (List.getLast?_eq_none_iff.mp none) other maker
      exact Bool.eq_false_iff.mpr unnamed
    · have least := ordered.rel_head_of_rel_head_head maker (le_refl _)
      rwa [(List.head_eq_iff_head?_eq_some _).mpr head] at least

/-- Of functions with different names only one is to be called. -/
theorem IsChosen.eq (distinct : (functions.map Function.name).Nodup) {one other : Function}
    (chosen : IsChosen functions wanted typeName external one)
    (alsoChosen : IsChosen functions wanted typeName external other) : one = other := by
  refine List.inj_on_of_nodup_map distinct chosen.member alsoChosen.member ?_
  rcases chosen.ranks with ⟨named, greatest⟩ | least
  · rcases alsoChosen.ranks with ⟨alsoNamed, alsoGreatest⟩ | alsoLeast
    · exact le_antisymm (alsoGreatest one chosen.member chosen.makes named)
        (greatest other alsoChosen.member alsoChosen.makes alsoNamed)
    · -- One of them is named after the type, so the other may not stand for lack of such names.
      have unnamed := (alsoLeast one chosen.member chosen.makes).1
      rw [named] at unnamed
      cases unnamed
  · rcases alsoChosen.ranks with ⟨alsoNamed, -⟩ | alsoLeast
    · have unnamed := (least other alsoChosen.member alsoChosen.makes).1
      rw [alsoNamed] at unnamed
      cases unnamed
    · exact le_antisymm (least other alsoChosen.member alsoChosen.makes).2
        (alsoLeast one chosen.member chosen.makes).2

end Found

section Identical

/-- Whether a result of a type gives a value of a wanted type, as it is or behind a pointer. -/
def Go.ResolvedType.gives (type : ResolvedType) (wanted : NamedType) : Bool :=
  match type.receiverNamed? with
  | none => false
  | some got => !hasTypeParams got && !hasTypeParams wanted && identical (.named got) (.named wanted)

/-- The function with results of other types. -/
def Go.Function.withResults (function : Function) (results : List Var) : Function :=
  { function with signature := { function.signature with results := results } }

variable {function : Function} {wanted : NamedType} {external : Bool}

/-- A reachable function is a constructor by what its results give. -/
theorem isConstructorFor_eq : isConstructorFor function wanted external =
    if function.isMethod || (external && !function.isExported) then false
    else match function.signature.results with
      | [result] => result.type.gives wanted
      | [result, failure] => result.type.gives wanted && failure.type.isError
      | _ => false := rfl

/-- A constructor is in reach, and gives the wanted type first and at most an error behind it. -/
theorem isConstructorFor_iff : isConstructorFor function wanted external = true ↔
    (function.isMethod || (external && !function.isExported)) = false ∧
      ∃ first rest, function.signature.results = first :: rest ∧ first.type.gives wanted = true ∧
        (rest = [] ∨ ∃ failure, rest = [failure] ∧ failure.type.isError = true) := by
  rw [isConstructorFor_eq]
  split
  · rename_i hidden
    simp [hidden]
  · rename_i reached
    rw [Bool.not_eq_true] at reached
    rw [reached]
    -- Only one or two results can be those of a constructor.
    rcases function.signature.results with _ | ⟨first, _ | ⟨second, _ | ⟨third, more⟩⟩⟩
    all_goals simp

/-- Whether a value of a wanted type without arguments is given, identity of types decides. -/
theorem gives_iff (plain : wanted.args = []) {type : ResolvedType} :
    type.gives wanted = true ↔
      ∃ got, type.receiverNamed? = some got ∧ identical (.named got) (.named wanted) = true := by
  have wantedParams : hasTypeParams wanted = false := by rw [hasTypeParams, plain]; rfl
  rw [ResolvedType.gives]
  cases type.receiverNamed? with
  | none => simp
  | some got =>
    simp only [wantedParams, Bool.not_false, Bool.and_true, Bool.and_eq_true, Bool.not_eq_true',
      Option.some.injEq, exists_eq_left', and_iff_right_iff_imp]
    -- Types with arguments are not identical to one without.
    intro same
    obtain ⟨package, name, args, shape⟩ := got
    rw [identical] at same
    simp only [ResolvedType.unalias, identicalNamed, Bool.and_eq_true, plain] at same
    cases args with
    | nil => rfl
    | cons first rest => simp [identicalTypes] at same

/-- Identical types give values of the same types. -/
theorem gives_of_identical (plain : wanted.args = []) {first second : ResolvedType}
    (same : identical first second = true) (gives : first.gives wanted = true) :
    second.gives wanted = true := by
  obtain ⟨got, receiver, wantedSame⟩ := (gives_iff plain).mp gives
  have receivers := receiverNamed?_of_identical same
  rw [receiver] at receivers
  cases other : second.receiverNamed? with
  | none =>
    rw [other] at receivers
    cases receivers
  | some found =>
    rw [other] at receivers
    cases receivers with
    | some alike =>
      refine (gives_iff plain).mpr ⟨found, other, ?_⟩
      -- Identity is the same validity and the same normal form.
      obtain ⟨valid, alsoValid, normal⟩ := (identical_iff _ _).mp alike
      obtain ⟨-, wantedValid, wantedNormal⟩ := (identical_iff _ _).mp wantedSame
      exact (identical_iff _ _).mpr ⟨alsoValid, wantedValid, normal.symm.trans wantedNormal⟩

theorem isError_of_identical {first second : ResolvedType} (same : identical first second = true)
    (error : first.isError = true) : second.isError = true := by
  obtain ⟨-, -, normal⟩ := (identical_iff _ _).mp same
  rw [ResolvedType.isError_iff] at error ⊢
  exact normal ▸ error

/-- A constructor stays one with results of identical types. -/
theorem isConstructorFor_of_identical (plain : wanted.args = []) {results : List Var}
    (same : identicalVars function.signature.results results = true)
    (makes : isConstructorFor function wanted external = true) :
    isConstructorFor (function.withResults results) wanted external = true := by
  obtain ⟨reached, first, rest, whole, gives, behind⟩ := isConstructorFor_iff.mp makes
  refine isConstructorFor_iff.mpr ⟨reached, ?_⟩
  rw [whole] at same
  obtain ⟨name, type⟩ := first
  cases results with
  | nil => simp [identicalVars] at same
  | cons second others =>
    simp only [identicalVars, Bool.and_eq_true] at same
    refine ⟨second, others, rfl, gives_of_identical plain same.1 gives, ?_⟩
    -- As many results stand behind the first, and an error stays one.
    rcases behind with rfl | ⟨failure, rfl, error⟩
    · left
      simpa [identicalVars] using same.2
    · right
      obtain ⟨failureName, failureType⟩ := failure
      rcases others with _ | ⟨other, more⟩
      · simp [identicalVars] at same
      · simp only [identicalVars, Bool.and_eq_true, List.isEmpty_iff] at same
        exact ⟨other, by rw [same.2.2], isError_of_identical same.2.1 error⟩

/-- Identity of the types of variables goes both ways. -/
theorem identicalVars_symm {first second : List Var} (same : identicalVars first second = true) :
    identicalVars second first = true := by
  obtain ⟨valid, alsoValid, normal⟩ := (identicalVars_iff first second).mp same
  exact (identicalVars_iff second first).mpr ⟨alsoValid, valid, normal.symm⟩

/-- Whether a function is a constructor depends on its results up to identity of their types. -/
theorem isConstructorFor_withResults (plain : wanted.args = []) {results : List Var}
    (same : identicalVars function.signature.results results = true) :
    isConstructorFor (function.withResults results) wanted external =
      isConstructorFor function wanted external := by
  rw [Bool.eq_iff_iff]
  constructor
  · -- With the results that it had the function is itself again.
    intro makes
    have back : isConstructorFor ((function.withResults results).withResults
        function.signature.results) wanted external = true :=
      isConstructorFor_of_identical plain (identicalVars_symm same) makes
    exact back
  · exact isConstructorFor_of_identical plain same

end Identical

/--
Of functions with different names, a test calls the one that is chosen, in whatever order they come.

Identical result types make no difference to a wanted type without type arguments.
-/
theorem findConstructor_chooses {functions : List Function}
    (distinct : (functions.map Function.name).Nodup) (wanted : NamedType) (typeName : String)
    (external : Bool) :
    (∀ others, functions.Perm others → findConstructor others wanted typeName external =
      findConstructor functions wanted typeName external) ∧
    (findConstructor functions wanted typeName external = none ↔
      ∀ function ∈ functions, isConstructorFor function wanted external = false) ∧
    (∀ made, findConstructor functions wanted typeName external = some made ↔
      IsChosen functions wanted typeName external made) ∧
    (wanted.args = [] → ∀ (function : Function) (results : List Var),
      identicalVars function.signature.results results = true →
        isConstructorFor (function.withResults results) wanted external =
          isConstructorFor function wanted external) := by
  refine ⟨fun others perm => ?_, findConstructor_eq_none_iff, fun made => ⟨isChosen_of_found, ?_⟩,
    fun plain function results => isConstructorFor_withResults plain⟩
  · -- The search only sees the functions by name.
    rw [findConstructor, findConstructor, byName_eq_of_perm distinct perm]
  · intro chosen
    cases found : findConstructor functions wanted typeName external with
    | none =>
      have makes := findConstructor_eq_none_iff.mp found made chosen.member
      rw [chosen.makes] at makes
      cases makes
    | some other => rw [chosen.eq distinct (isChosen_of_found found)]

/-- A type of sets. -/
def setType : NamedType :=
  ⟨⟨"m", "p"⟩, "Set", [], .struct⟩

/-- A function that makes a set and an error. -/
def setMaker (name : String) : Function :=
  ⟨name, ⟨"m", "p"⟩, none, ⟨[], [⟨"", .pointer (.named setType)⟩, ⟨"", .error⟩], false⟩, ⟨"p.go"⟩, 0⟩

/-- Of two functions named after the type the one with the greater name is called, in either order. -/
theorem findConstructor_chooses_newSet :
    ((["newSet", "NewSet", "Empty"].map setMaker).map Function.name).Nodup ∧
      (findConstructor (["newSet", "NewSet", "Empty"].map setMaker) setType "Set" false).map
        Function.name = some "newSet" ∧
      findConstructor (["newSet", "NewSet", "Empty"].map setMaker).reverse setType "Set" false =
        findConstructor (["newSet", "NewSet", "Empty"].map setMaker) setType "Set" false := by
  have distinct : ((["newSet", "NewSet", "Empty"].map setMaker).map Function.name).Nodup := by
    decide
  obtain ⟨unordered, -⟩ := findConstructor_chooses distinct setType "Set" false
  exact ⟨distinct, by decide +kernel, unordered _ (List.reverse_perm _).symm⟩

end Scaffold
