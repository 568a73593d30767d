import Mathlib.Tactic.Tauto
import Scaffold.Go.Identity

/-! Identity of types is equality of normal forms, among types without an invalid part. -/

namespace Scaffold.Go

open ResolvedType

mutual

/-- The form that all types identical to a type share: aliases, second names and labels are gone. -/
def ResolvedType.normal : ResolvedType → ResolvedType
  | .basic name => .basic (canonicalBasic name)
  | .error => .error
  | .any => .any
  | .named type => .named type.normal
  | .aliased _ _ target => target.normal
  | .param name => .param name
  | .pointer elem => .pointer elem.normal
  | .slice elem => .slice elem.normal
  | .array length elem => .array length elem.normal
  | .map key value => .map key.normal value.normal
  | .chan dir elem => .chan dir elem.normal
  | .func signature => .func signature.normal
  | .struct fields => .struct (normalFields fields)
  | .interface [] => .any
  | .interface (first :: rest) => .interface (normalElems (first :: rest))
  | .invalid text => .invalid text

/-- A defined type keeps its path, its name and its arguments. -/
def NamedType.normal : NamedType → NamedType
  | ⟨package, name, args, _⟩ => ⟨⟨package.path, ""⟩, name, normalTypes args, .unknown⟩

/-- The normal forms of types, in order. -/
def normalTypes : List ResolvedType → List ResolvedType
  | [] => []
  | first :: rest => first.normal :: normalTypes rest

/-- A signature keeps the types of its parameters and results. -/
def Signature.normal : Signature → Signature
  | ⟨params, results, variadic⟩ => ⟨normalVars params, normalVars results, variadic⟩

/-- Variables lose their names. -/
def normalVars : List Var → List Var
  | [] => []
  | ⟨_, type⟩ :: rest => ⟨"", type.normal⟩ :: normalVars rest

/-- Fields keep their names. -/
def normalFields : List StructField → List StructField
  | [] => []
  | ⟨name, type⟩ :: rest => ⟨name, type.normal⟩ :: normalFields rest

/-- Methods keep their names. -/
def normalElems : List InterfaceElem → List InterfaceElem
  | [] => []
  | .method name signature :: rest => .method name signature.normal :: normalElems rest
  | .embedded type :: rest => .embedded type.normal :: normalElems rest

end

mutual

/-- Whether no part of a type is invalid, behind aliases neither. -/
def ResolvedType.isValid : ResolvedType → Bool
  | .basic _ | .error | .any | .param _ => true
  | .named type => type.isValid
  | .aliased _ _ target => target.isValid
  | .pointer elem | .slice elem | .array _ elem | .chan _ elem => elem.isValid
  | .map key value => key.isValid && value.isValid
  | .func signature => signature.isValid
  | .struct fields => validFields fields
  | .interface elems => validElems elems
  | .invalid _ => false

/-- Whether all arguments of a defined type are valid. -/
def NamedType.isValid : NamedType → Bool
  | ⟨_, _, args, _⟩ => validTypes args

/-- Whether all of some types are valid. -/
def validTypes : List ResolvedType → Bool
  | [] => true
  | first :: rest => first.isValid && validTypes rest

/-- Whether all types of a signature are valid. -/
def Signature.isValid : Signature → Bool
  | ⟨params, results, _⟩ => validVars params && validVars results

/-- Whether all types of some variables are valid. -/
def validVars : List Var → Bool
  | [] => true
  | ⟨_, type⟩ :: rest => type.isValid && validVars rest

/-- Whether all types of some fields are valid. -/
def validFields : List StructField → Bool
  | [] => true
  | ⟨_, type⟩ :: rest => type.isValid && validFields rest

/-- Whether all types of some interface elements are valid. -/
def validElems : List InterfaceElem → Bool
  | [] => true
  | .method _ signature :: rest => signature.isValid && validElems rest
  | .embedded type :: rest => type.isValid && validElems rest

end

namespace ResolvedType

/-- Whether a type is an alias. -/
def isAlias : ResolvedType → Bool
  | .aliased _ _ _ => true
  | _ => false

/-- Behind all aliases there is none. -/
theorem isAlias_unalias (type : ResolvedType) : type.unalias.isAlias = false := by
  fun_induction unalias type with
  | case1 package name target ih => exact ih
  | case2 type other =>
    cases type with
    | aliased package name target => exact absurd rfl (other package name target)
    | _ => rfl

theorem unalias_unalias (type : ResolvedType) : type.unalias.unalias = type.unalias := by
  fun_induction unalias type with
  | case1 package name target ih => exact ih
  | case2 type other => rw [unalias]; exact other

theorem normal_unalias (type : ResolvedType) : type.unalias.normal = type.normal := by
  fun_induction unalias type with
  | case1 package name target ih => rw [ih, normal]
  | case2 => rfl

theorem isValid_unalias (type : ResolvedType) : type.unalias.isValid = type.isValid := by
  fun_induction unalias type with
  | case1 package name target ih => rw [ih, isValid]
  | case2 => rfl

end ResolvedType

theorem identical_unalias : ∀ a b : ResolvedType, identical a b.unalias = identical a b
  | .aliased _ _ target, b => by rw [identical, identical]; exact identical_unalias target b
  | .basic _, b | .error, b | .any, b | .named _, b | .param _, b | .pointer _, b | .slice _, b
  | .array _ _, b | .map _ _, b | .chan _ _, b | .func _, b | .struct _, b | .interface _, b
  | .invalid _, b => by simp only [identical, b.unalias_unalias]

/-- It is enough to compare a type with types that are no aliases. -/
private theorem iff_of_plain {a : ResolvedType} (plain : ∀ b : ResolvedType, b.isAlias = false →
    (identical a b = true ↔ a.isValid = true ∧ b.isValid = true ∧ a.normal = b.normal))
    (b : ResolvedType) :
    identical a b = true ↔ a.isValid = true ∧ b.isValid = true ∧ a.normal = b.normal := by
  rw [← identical_unalias, plain _ b.isAlias_unalias, b.isValid_unalias, b.normal_unalias]

/-- Interfaces have one normal form exactly if their elements have. -/
private theorem normal_interface_eq_iff (first second : List InterfaceElem) :
    (interface first).normal = (interface second).normal ↔
      normalElems first = normalElems second := by
  cases first with
  | nil => rcases second with _ | ⟨⟨⟩ | ⟨⟩, others⟩ <;> simp [normal, normalElems]
  | cons head rest => rcases head with ⟨⟩ | ⟨⟩ <;> cases second <;> simp [normal, normalElems]

mutual

/-- Types are identical exactly if they are valid and have one normal form. -/
theorem identical_iff : ∀ a b : ResolvedType,
    identical a b = true ↔ a.isValid = true ∧ b.isValid = true ∧ a.normal = b.normal
  | .aliased _ _ target, b => by
    rw [identical, isValid, normal]
    exact identical_iff target b
  | .error, b => iff_of_plain (fun other plain => by
    cases other with
    | error => simp [identical, unalias, isValid]
    | interface elems => cases elems <;> simp [identical, unalias, normal]
    | aliased => cases plain
    | _ => simp [identical, unalias, normal]) b
  | .any, b => iff_of_plain (fun other plain => by
    -- An interface without elements is the same as any type.
    cases other with
    | any => simp [identical, unalias, isValid]
    | interface elems => cases elems <;> simp [identical, unalias, normal, isValid, validElems]
    | aliased => cases plain
    | _ => simp [identical, unalias, normal]) b
  | .basic first, b => iff_of_plain (fun other plain => by
    cases other with
    | basic second =>
      simp [identical, unalias, isValid, normal]
    | interface elems => cases elems <;> simp [identical, unalias, normal]
    | aliased => cases plain
    | _ => simp [identical, unalias, normal]) b
  | .param first, b => iff_of_plain (fun other plain => by
    cases other with
    | param second =>
      simp [identical, unalias, isValid, normal]
    | interface elems => cases elems <;> simp [identical, unalias, normal]
    | aliased => cases plain
    | _ => simp [identical, unalias, normal]) b
  | .named first, b => iff_of_plain (fun other plain => by
    cases other with
    | named second =>
      simpa [identical, unalias, isValid, normal] using identicalNamed_iff first second
    | interface elems => cases elems <;> simp [identical, unalias, normal]
    | aliased => cases plain
    | _ => simp [identical, unalias, normal]) b
  | .pointer first, b => iff_of_plain (fun other plain => by
    cases other with
    | pointer second =>
      simpa [identical, unalias, isValid, normal] using identical_iff first second
    | interface elems => cases elems <;> simp [identical, unalias, normal]
    | aliased => cases plain
    | _ => simp [identical, unalias, normal]) b
  | .slice first, b => iff_of_plain (fun other plain => by
    cases other with
    | slice second =>
      simpa [identical, unalias, isValid, normal] using identical_iff first second
    | interface elems => cases elems <;> simp [identical, unalias, normal]
    | aliased => cases plain
    | _ => simp [identical, unalias, normal]) b
  | .array length first, b => iff_of_plain (fun other plain => by
    cases other with
    | array size second =>
      have elems := identical_iff first second
      simp only [identical, unalias, isValid, normal, Bool.and_eq_true, beq_iff_eq, array.injEq, elems]
      tauto
    | interface elems => cases elems <;> simp [identical, unalias, normal]
    | aliased => cases plain
    | _ => simp [identical, unalias, normal]) b
  | .chan dir first, b => iff_of_plain (fun other plain => by
    cases other with
    | chan way second =>
      have elems := identical_iff first second
      simp only [identical, unalias, isValid, normal, Bool.and_eq_true, beq_iff_eq, chan.injEq, elems]
      tauto
    | interface elems => cases elems <;> simp [identical, unalias, normal]
    | aliased => cases plain
    | _ => simp [identical, unalias, normal]) b
  | .map key value, b => iff_of_plain (fun other plain => by
    cases other with
    | map index held =>
      have keys := identical_iff key index
      have values := identical_iff value held
      simp only [identical, unalias, isValid, normal, Bool.and_eq_true, map.injEq, keys, values]
      tauto
    | interface elems => cases elems <;> simp [identical, unalias, normal]
    | aliased => cases plain
    | _ => simp [identical, unalias, normal]) b
  | .func first, b => iff_of_plain (fun other plain => by
    cases other with
    | func second =>
      simpa [identical, unalias, isValid, normal] using identicalSignatures_iff first second
    | interface elems => cases elems <;> simp [identical, unalias, normal]
    | aliased => cases plain
    | _ => simp [identical, unalias, normal]) b
  | .struct first, b => iff_of_plain (fun other plain => by
    cases other with
    | struct second =>
      simpa [identical, unalias, isValid, normal] using identicalFields_iff first second
    | interface elems => cases elems <;> simp [identical, unalias, normal]
    | aliased => cases plain
    | _ => simp [identical, unalias, normal]) b
  | .interface first, b => iff_of_plain (fun other plain => by
    cases other with
    | interface second =>
      have same := identicalElems_iff first second
      simp only [identical, unalias, isValid, same, normal_interface_eq_iff]
    | any => cases first <;> simp [identical, unalias, normal, isValid, validElems]
    | aliased => cases plain
    | _ => cases first <;> simp [identical, unalias, normal]) b
  | .invalid _, b => by simp [identical, isValid]

theorem identicalNamed_iff : ∀ a b : NamedType,
    identicalNamed a b = true ↔ a.isValid = true ∧ b.isValid = true ∧ a.normal = b.normal
  | ⟨⟨path, _⟩, name, args, _⟩, ⟨⟨otherPath, _⟩, otherName, others, _⟩ => by
    simp only [identicalNamed, NamedType.isValid, NamedType.normal, Bool.and_eq_true, beq_iff_eq,
      NamedType.mk.injEq, PackageRef.mk.injEq, identicalTypes_iff args others]
    tauto

theorem identicalTypes_iff : ∀ a b : List ResolvedType, identicalTypes a b = true ↔
    validTypes a = true ∧ validTypes b = true ∧ normalTypes a = normalTypes b
  | [], [] => by simp [identicalTypes, validTypes]
  | [], second :: others => by simp [identicalTypes, normalTypes]
  | first :: rest, [] => by simp [identicalTypes, normalTypes]
  | first :: rest, second :: others => by
    simp only [identicalTypes, validTypes, normalTypes, Bool.and_eq_true, List.cons.injEq,
      identical_iff first second, identicalTypes_iff rest others]
    tauto

theorem identicalSignatures_iff : ∀ a b : Signature,
    identicalSignatures a b = true ↔ a.isValid = true ∧ b.isValid = true ∧ a.normal = b.normal
  | ⟨params, results, _⟩, ⟨others, given, _⟩ => by
    simp only [identicalSignatures, Signature.isValid, Signature.normal, Bool.and_eq_true,
      beq_iff_eq, Signature.mk.injEq, identicalVars_iff params others,
      identicalVars_iff results given]
    tauto

theorem identicalVars_iff : ∀ a b : List Var, identicalVars a b = true ↔
    validVars a = true ∧ validVars b = true ∧ normalVars a = normalVars b
  | [], [] => by simp [identicalVars, validVars]
  | [], ⟨_, second⟩ :: others => by simp [identicalVars, normalVars]
  | ⟨_, first⟩ :: rest, [] => by simp [identicalVars, normalVars]
  | ⟨_, first⟩ :: rest, ⟨_, second⟩ :: others => by
    simp only [identicalVars, validVars, normalVars, Bool.and_eq_true, List.cons.injEq, Var.mk.injEq,
      identical_iff first second, identicalVars_iff rest others]
    tauto

theorem identicalFields_iff : ∀ a b : List StructField, identicalFields a b = true ↔
    validFields a = true ∧ validFields b = true ∧ normalFields a = normalFields b
  | [], [] => by simp [identicalFields, validFields]
  | [], ⟨_, second⟩ :: others => by simp [identicalFields, normalFields]
  | ⟨_, first⟩ :: rest, [] => by simp [identicalFields, normalFields]
  | ⟨_, first⟩ :: rest, ⟨_, second⟩ :: others => by
    simp only [identicalFields, validFields, normalFields, Bool.and_eq_true, beq_iff_eq,
      List.cons.injEq, StructField.mk.injEq, identical_iff first second,
      identicalFields_iff rest others]
    tauto

theorem identicalElems_iff : ∀ a b : List InterfaceElem, identicalElems a b = true ↔
    validElems a = true ∧ validElems b = true ∧ normalElems a = normalElems b
  | [], [] => by simp [identicalElems, validElems]
  | [], .method _ _ :: _ | [], .embedded _ :: _ => by simp [identicalElems, normalElems]
  | .method _ _ :: _, [] | .embedded _ :: _, [] => by simp [identicalElems, normalElems]
  | .method _ _ :: _, .embedded _ :: _ | .embedded _ :: _, .method _ _ :: _ => by
    simp [identicalElems, normalElems]
  | .method _ first :: rest, .method _ second :: others => by
    simp only [identicalElems, validElems, normalElems, Bool.and_eq_true, beq_iff_eq,
      List.cons.injEq, InterfaceElem.method.injEq, identicalSignatures_iff first second,
      identicalElems_iff rest others]
    tauto
  | .embedded first :: rest, .embedded second :: others => by
    simp only [identicalElems, validElems, normalElems, Bool.and_eq_true, List.cons.injEq,
      InterfaceElem.embedded.injEq, identical_iff first second, identicalElems_iff rest others]
    tauto

end

namespace ResolvedType

/-- A type is the error type exactly if its normal form is. -/
theorem isError_iff (type : ResolvedType) : type.isError = true ↔ type.normal = .error := by
  have plain := type.isAlias_unalias
  rw [isError, ← type.normal_unalias]
  generalize type.unalias = base at plain
  cases base with
  | aliased => cases plain
  | interface elems => cases elems <;> simp [normal]
  | _ => simp [normal]

/-- A normal form has no alias in front. -/
theorem unalias_normal (type : ResolvedType) : type.normal.unalias = type.normal := by
  have plain := type.isAlias_unalias
  rw [← type.normal_unalias]
  generalize type.unalias = base at plain
  cases base with
  | aliased => cases plain
  | interface elems => cases elems <;> rfl
  | _ => rfl

/-- The receiver of a normal form is the normal form of the receiver. -/
theorem receiverNamed?_normal (type : ResolvedType) :
    type.normal.receiverNamed? = type.receiverNamed?.map NamedType.normal := by
  have plain := type.isAlias_unalias
  rw [receiverNamed?, receiverNamed?, unalias_normal, ← type.normal_unalias]
  generalize type.unalias = base at plain
  cases base with
  | aliased => cases plain
  | interface elems => cases elems <;> rfl
  | pointer elem =>
    -- Only one pointer is looked through, and aliases behind it.
    have inner := elem.isAlias_unalias
    simp only [normal, unalias_normal, ← elem.normal_unalias]
    generalize elem.unalias = held at inner
    cases held with
    | aliased => cases inner
    | interface elems => cases elems <;> rfl
    | _ => rfl
  | _ => rfl

/-- The receiver of a valid type is valid. -/
theorem isValid_of_receiverNamed? {type : ResolvedType} (valid : type.isValid = true)
    {found : NamedType} (receiver : type.receiverNamed? = some found) : found.isValid = true := by
  rw [← type.isValid_unalias] at valid
  rw [receiverNamed?] at receiver
  cases base : type.unalias with
  | pointer elem =>
    rw [base, isValid, ← elem.isValid_unalias] at valid
    cases inner : elem.unalias <;> simp_all [isValid]
  | _ => simp_all [isValid]

end ResolvedType

/-- Identical types are of receivers that are identical, or of none. -/
theorem receiverNamed?_of_identical {a b : ResolvedType} (same : identical a b = true) :
    Option.Rel (fun first second => identical (.named first) (.named second) = true)
      a.receiverNamed? b.receiverNamed? := by
  obtain ⟨valid, valid', same⟩ := (identical_iff a b).mp same
  have receivers := a.receiverNamed?_normal.symm.trans (same ▸ b.receiverNamed?_normal)
  cases first : a.receiverNamed? with
  | none =>
    cases second : b.receiverNamed? with
    | none => exact .none
    | some => simp [first, second] at receivers
  | some found =>
    cases second : b.receiverNamed? with
    | none => simp [first, second] at receivers
    | some other =>
      rw [first, second] at receivers
      refine .some ((identical_iff _ _).mpr ⟨isValid_of_receiverNamed? valid first,
        isValid_of_receiverNamed? valid' second, ?_⟩)
      rw [normal, normal, Option.some.inj receivers]

/--
Identity is a partial equivalence: it holds between valid types with one normal form.

It keeps whether a type is the error type, and which defined type its receiver is of.
-/
theorem identical_partialEquivalence :
    (∀ a b, identical a b = true ↔ a.isValid = true ∧ b.isValid = true ∧ a.normal = b.normal) ∧
    (∀ a b, identical a b = true → identical b a = true) ∧
    (∀ a b c, identical a b = true → identical b c = true → identical a c = true) ∧
    (∀ a, identical a a = true ↔ a.isValid = true) ∧
    ∀ a b, identical a b = true → a.isError = b.isError ∧
      Option.Rel (fun first second => identical (.named first) (.named second) = true)
        a.receiverNamed? b.receiverNamed? := by
  refine ⟨identical_iff, fun a b same => ?_, fun a b c first second => ?_, fun a => ?_,
    fun a b same => ⟨?_, receiverNamed?_of_identical same⟩⟩
  · obtain ⟨valid, valid', same⟩ := (identical_iff a b).mp same
    exact (identical_iff b a).mpr ⟨valid', valid, same.symm⟩
  · obtain ⟨valid, -, same⟩ := (identical_iff a b).mp first
    obtain ⟨-, valid', same'⟩ := (identical_iff b c).mp second
    exact (identical_iff a c).mpr ⟨valid, valid', same.trans same'⟩
  · simp [identical_iff]
  · obtain ⟨-, -, same⟩ := (identical_iff a b).mp same
    rw [Bool.eq_iff_iff, a.isError_iff, b.isError_iff, same]

end Scaffold.Go
