import Scaffold.Proofs.Go.Printed
import Scaffold.Proofs.Go.Spelling

/-! Types that are written as some meaning is spelled: what is so of the parts is so of the whole. -/

namespace Scaffold.Go

variable {qualifier : PackageRef → String}

variable (qualifier) in
/-- A type that is written as some meaning is spelled. -/
structure ResolvedType.IsWrittenAs (type : ResolvedType) (meaning : TypeMeaning) : Prop where
  plain : meaning.IsPlain
  chars : type.chars qualifier = lexemeChars meaning.lexemes
  receives : type.takesArrow .both = meaning.isReceive

variable (qualifier) in
/-- A variable that is written as some parameter is spelled. -/
structure Var.IsWrittenAs (var : Var) (param : ParamMeaning) : Prop where
  name : var.name = param.name.getD ""
  named : ∀ text ∈ param.name, isName text.toList = true
  type : ∃ type : ResolvedType, type.IsWrittenAs qualifier param.type ∧
    var.type = if param.variadic then .slice type else type

variable (qualifier) in
/-- A signature that is written as some meaning is spelled. -/
structure Signature.IsWrittenAs (signature : Signature) (meaning : SignatureMeaning) : Prop where
  plain : meaning.IsPlain
  chars : signature.chars qualifier = lexemeChars meaning.lexemes

variable (qualifier) in
/-- A field that is written as some meaning is spelled. -/
structure StructField.IsWrittenAs (field : StructField) (meaning : FieldMeaning) : Prop where
  name : field.name = meaning.name
  plain : ArePlainFields [meaning]
  type : field.type.IsWrittenAs qualifier meaning.type

variable (qualifier) in
/-- A line of an interface that is written as some meaning is spelled. -/
structure InterfaceElem.IsWrittenAs (elem : InterfaceElem) (meaning : ElemMeaning) : Prop where
  plain : ArePlainElems [meaning]
  chars : [elem.chars qualifier] = (elemLexemes [meaning]).map lexemeChars

section Chars

@[simp] theorem chars_markLexeme (text : String) : (markLexeme text).chars = text.toList := rfl

@[simp] theorem chars_keywordLexeme (text : String) : (keywordLexeme text).chars = text.toList := rfl

@[simp] theorem chars_nameLexeme (text : String) : (nameLexeme text).chars = text.toList := rfl

@[simp] theorem chars_blank (c : Char) : (Lexeme.blank c).chars = [c] := rfl

@[simp] theorem chars_terminator : (Lexeme.token .terminator [';']).chars = [';'] := rfl

/-- The characters of elements with separators and blanks between them. -/
theorem lexemeChars_separated {divider : Lexeme} {text : String}
    (same : divider.chars ++ [' '] = text.toList) (lists : List (List Lexeme)) :
    lexemeChars (separated divider lists) = joinWith text.toList (lists.map lexemeChars) := by
  cases lists with
  | nil => rfl
  | cons first rest =>
    rw [separated]
    induction rest generalizing first with
    | nil => simp [joinWith]
    | cons next rest ih =>
      have others := ih next
      rw [lexemeChars_append] at others
      rw [List.map_cons, List.map_cons, joinWith, ← List.map_cons, ← others, ← same,
        List.flatMap_cons]
      simp

theorem lexemeChars_commas (lists : List (List Lexeme)) :
    lexemeChars (separated (markLexeme ",") lists) = joinWith ", ".toList (lists.map lexemeChars) :=
  lexemeChars_separated (by decide) lists

theorem lexemeChars_semicolons (lists : List (List Lexeme)) :
    lexemeChars (separated (.token .terminator [';']) lists) =
      joinWith "; ".toList (lists.map lexemeChars) :=
  lexemeChars_separated (by decide) lists

/-- A length is written as the elements that it is divided into. -/
theorem IsLength.chars {length : String} (is : IsLength length) :
    lexemeChars (lengthLexemes length) = length.toList :=
  (List.append_cancel_right (is.lexes []).chars).symm

theorem lexemeChars_label (qualifier : PackageRef → String) (label : Option String) :
    lexemeChars (labelLexemes label) = charsOf qualifier (fieldName label) := by
  cases label <;> simp [labelLexemes, fieldName]

/-- A name in front of a parameter is written like that of a field. -/
theorem charsOf_leadingName (qualifier : PackageRef → String) {label : Option String}
    (named : ∀ text ∈ label, isName text.toList = true) :
    charsOf qualifier (leadingName (label.getD "")) = lexemeChars (labelLexemes label) := by
  cases label with
  | none => rfl
  | some text =>
    have filled : text.isEmpty = false := by
      rw [← Bool.not_eq_true, String.isEmpty_iff]
      rintro rfl
      cases named "" rfl
    simp [leadingName, filled, labelLexemes]

end Chars

namespace ResolvedType.IsWrittenAs

variable {type elem key value : ResolvedType} {meaning second : TypeMeaning}

/-- A name is written as such. -/
theorem name {text : String} (is : isName text.toList = true)
    (chars : type.chars qualifier = text.toList) (other : type.takesArrow .both = false) :
    type.IsWrittenAs qualifier (.name text) := by
  refine ⟨by rwa [TypeMeaning.IsPlain], ?_, other⟩
  rw [chars, TypeMeaning.lexemes]
  simp

theorem pointer (written : elem.IsWrittenAs qualifier meaning) :
    (ResolvedType.pointer elem).IsWrittenAs qualifier (.pointer meaning) := by
  refine ⟨by rw [TypeMeaning.IsPlain]; exact written.plain, ?_, rfl⟩
  rw [chars_pointer, written.chars, TypeMeaning.lexemes]
  simp

theorem slice (written : elem.IsWrittenAs qualifier meaning) :
    (ResolvedType.slice elem).IsWrittenAs qualifier (.slice meaning) := by
  refine ⟨by rw [TypeMeaning.IsPlain]; exact written.plain, ?_, rfl⟩
  rw [chars_slice, written.chars, TypeMeaning.lexemes]
  simp

theorem array {length : String} (is : IsLength length) (written : elem.IsWrittenAs qualifier meaning) :
    (ResolvedType.array length elem).IsWrittenAs qualifier (.array length meaning) := by
  refine ⟨by rw [TypeMeaning.IsPlain]; exact ⟨is, written.plain⟩, ?_, rfl⟩
  rw [chars_array, written.chars, TypeMeaning.lexemes]
  simp [is.chars]

theorem map (first : key.IsWrittenAs qualifier meaning) (other : value.IsWrittenAs qualifier second) :
    (ResolvedType.map key value).IsWrittenAs qualifier (.map meaning second) := by
  refine ⟨by rw [TypeMeaning.IsPlain]; exact ⟨first.plain, other.plain⟩, ?_, rfl⟩
  rw [chars_map, first.chars, other.chars, TypeMeaning.lexemes]
  simp

/-- A channel is written with parentheses around its element exactly where they are needed. -/
theorem chan (dir : ChanDir) (written : elem.IsWrittenAs qualifier meaning) :
    (ResolvedType.chan dir elem).IsWrittenAs qualifier (.chan dir meaning) := by
  have plain : (TypeMeaning.chan dir meaning).IsPlain := by
    rw [TypeMeaning.IsPlain]
    exact written.plain
  have free : dir ≠ .both → elem.takesArrow dir = false := by
    intro other
    unfold ResolvedType.takesArrow
    split
    · exact beq_false_of_ne other
    · rfl
  refine ⟨plain, ?_, by cases dir <;> rfl⟩
  rw [chars_chan, elemChars, written.chars]
  cases dir with
  | both =>
    rw [written.receives, TypeMeaning.lexemes, enclosedLexemes]
    split <;> simp [ChanDir.opening]
  | send =>
    rw [free (by decide), TypeMeaning.lexemes]
    simp [ChanDir.opening]
  | receive =>
    rw [free (by decide), TypeMeaning.lexemes]
    simp [ChanDir.opening]

theorem func {signature : Signature} {meaning : SignatureMeaning}
    (written : signature.IsWrittenAs qualifier meaning) :
    (ResolvedType.func signature).IsWrittenAs qualifier (.func meaning) := by
  refine ⟨by rw [TypeMeaning.IsPlain]; exact written.plain, ?_, rfl⟩
  rw [chars_func, written.chars, TypeMeaning.lexemes]
  simp

end ResolvedType.IsWrittenAs

section Lists

variable {types : List ResolvedType} {meanings : List TypeMeaning} {vars : List Var}
  {params : List ParamMeaning} {fields : List StructField} {fieldMeanings : List FieldMeaning}
  {elems : List InterfaceElem} {elemMeanings : List ElemMeaning}

/-- What is written between the brackets of a defined type with arguments. -/
theorem joinWith_types (each : List.Forall₂ (ResolvedType.IsWrittenAs qualifier) types meanings) :
    types.map (ResolvedType.chars qualifier) = (typeLexemes meanings).map lexemeChars := by
  induction each with
  | nil => rfl
  | cons first _ ih => rw [List.map_cons, typeLexemes, List.map_cons, ih, first.chars]

theorem arePlainTypes_of_written
    (each : List.Forall₂ (ResolvedType.IsWrittenAs qualifier) types meanings) :
    ArePlainTypes meanings := by
  induction each with
  | nil => trivial
  | cons first _ ih => exact ⟨first.plain, ih⟩

/-- Fields are written one by one. -/
theorem map_fields (each : List.Forall₂ (StructField.IsWrittenAs qualifier) fields fieldMeanings) :
    fields.map (StructField.chars qualifier) = (fieldLexemes fieldMeanings).map lexemeChars := by
  induction each with
  | nil => rfl
  | @cons field meaning _ _ first _ ih =>
    obtain ⟨name, type, tag⟩ := meaning
    have named : field.name = name := first.name
    have typed : field.type.chars qualifier = lexemeChars type.lexemes := first.type.chars
    rw [List.map_cons, fieldLexemes, List.map_cons, ih, StructField.chars, named, typed,
      lexemeChars_append, lexemeChars_label qualifier]

theorem arePlainFields_of_written
    (each : List.Forall₂ (StructField.IsWrittenAs qualifier) fields fieldMeanings) :
    ArePlainFields fieldMeanings := by
  induction each with
  | nil => trivial
  | @cons field meaning _ _ first _ ih =>
    obtain ⟨name, type, tag⟩ := meaning
    have plain := first.plain
    rw [ArePlainFields] at plain ⊢
    exact ⟨plain.1, plain.2.1, plain.2.2.1, plain.2.2.2.1, ih⟩

/-- So are the lines of an interface. -/
theorem map_elems (each : List.Forall₂ (InterfaceElem.IsWrittenAs qualifier) elems elemMeanings) :
    elems.map (InterfaceElem.chars qualifier) = (elemLexemes elemMeanings).map lexemeChars := by
  induction each with
  | nil => rfl
  | @cons elem meaning _ _ first _ ih =>
    have one := first.chars
    cases meaning <;>
    · rw [elemLexemes, elemLexemes, List.map_cons, List.map_nil] at one
      rw [List.map_cons, elemLexemes, List.map_cons, ih, (List.cons.inj one).1]

theorem arePlainElems_of_written
    (each : List.Forall₂ (InterfaceElem.IsWrittenAs qualifier) elems elemMeanings) :
    ArePlainElems elemMeanings := by
  induction each with
  | nil => trivial
  | @cons elem meaning _ _ first _ ih =>
    have plain := first.plain
    cases meaning with
    | method name signature =>
      rw [ArePlainElems] at plain ⊢
      exact ⟨plain.1, plain.2.1, ih⟩
    | embedded type =>
      rw [ArePlainElems] at plain ⊢
      exact ⟨plain.1, ih⟩
    | union types =>
      rw [ArePlainElems] at plain
      exact plain.elim

/-- A parameter that is not spread is written with its name in front of its type. -/
theorem spreadChars_single {var : Var} {param : ParamMeaning} (written : var.IsWrittenAs qualifier param)
    (single : param.variadic = false) :
    [spreadChars qualifier (false, var)] = (paramLexemes [param]).map lexemeChars := by
  obtain ⟨name, type, variadic⟩ := param
  obtain ⟨named, is, type', typed, held⟩ := written
  obtain rfl : variadic = false := single
  rw [paramLexemes, paramLexemes, List.map_cons, List.map_nil, spreadChars, named, held,
    if_neg (by simp [ParamMeaning.variadic]), charsOf_leadingName qualifier is, spread,
    if_neg (by simp), if_neg (by simp), List.append_nil, lexemeChars_append]
  exact congrArg (fun chars => [_ ++ chars]) typed.chars

/-- One that is spread has dots in the place of the brackets of its slice. -/
theorem spreadChars_spread {var : Var} {param : ParamMeaning} (written : var.IsWrittenAs qualifier param)
    (spreads : param.variadic = true) : var.type.isSlice = true ∧
    [spreadChars qualifier (true, var)] = (paramLexemes [param]).map lexemeChars := by
  obtain ⟨name, type, variadic⟩ := param
  obtain ⟨named, is, type', typed, held⟩ := written
  obtain rfl : variadic = true := spreads
  rw [if_pos (by simp [ParamMeaning.variadic])] at held
  refine ⟨by rw [held]; rfl, ?_⟩
  rw [paramLexemes, paramLexemes, List.map_cons, List.map_nil, spreadChars, named, held,
    charsOf_leadingName qualifier is, charsOf_spread_slice, if_pos rfl, lexemeChars_append,
    lexemeChars_append]
  simp only [lexemeChars_cons, chars_markLexeme, lexemeChars_nil, List.append_nil, List.append_assoc]
  exact congrArg (fun chars => [_ ++ (_ ++ chars)]) typed.chars

/-- Parameters are written one by one, where only the last of them may be spread. -/
theorem map_params (each : List.Forall₂ (Var.IsWrittenAs qualifier) vars params)
    (spreads : ∀ param ∈ params.dropLast, param.variadic = false) :
    (spreadable (params.any ParamMeaning.variadic) vars).map (spreadChars qualifier) =
      (paramLexemes params).map lexemeChars := by
  induction each with
  | nil => rfl
  | @cons var param vars params first others ih =>
    cases others with
    | nil =>
      rw [spreadable, List.any_cons, List.any_nil, Bool.or_false]
      cases variadic : param.variadic with
      | false => exact spreadChars_single first variadic
      | true =>
        obtain ⟨sliced, same⟩ := spreadChars_spread first variadic
        rw [sliced]
        exact same
    | @cons next other vars params second more =>
      obtain ⟨single, rest⟩ := List.forall_mem_cons.mp spreads
      have one := spreadChars_single first single
      rw [List.any_cons, single, Bool.false_or, spreadable, List.map_cons, ih rest]
      obtain ⟨name, type, variadic⟩ := param
      rw [paramLexemes, paramLexemes, List.map_cons, List.map_nil] at one
      rw [paramLexemes, List.map_cons, (List.cons.inj one).1]

theorem listChars_written (each : List.Forall₂ (Var.IsWrittenAs qualifier) vars params)
    (spreads : ∀ param ∈ params.dropLast, param.variadic = false) :
    listChars qualifier (params.any ParamMeaning.variadic) vars =
      lexemeChars (separated (markLexeme ",") (paramLexemes params)) := by
  rw [listChars, map_params each spreads, lexemeChars_commas]

theorem arePlainParams_of_written (each : List.Forall₂ (Var.IsWrittenAs qualifier) vars params) :
    ArePlainParams params := by
  induction each with
  | nil => trivial
  | @cons var param _ _ first _ ih =>
    obtain ⟨name, type, variadic⟩ := param
    obtain ⟨_, typed, _⟩ := first.type
    rw [ArePlainParams]
    exact ⟨first.named, typed.plain, ih⟩

/-- Results are written in parentheses unless there is a single one without a name. -/
theorem resultChars_written (each : List.Forall₂ (Var.IsWrittenAs qualifier) vars params)
    (single : ∀ param ∈ params, param.variadic = false) :
    resultChars qualifier vars = lexemeChars (resultLexemes params (paramLexemes params)) := by
  have none : params.any ParamMeaning.variadic = false := by
    simpa using single
  have listed := listChars_written each fun param member => single param (List.dropLast_subset _ member)
  rw [none] at listed
  have enclosed : lexemeChars (.blank ' ' :: markLexeme "(" ::
      separated (markLexeme ",") (paramLexemes params) ++ [markLexeme ")"]) =
        ' ' :: '(' :: listChars qualifier false vars ++ [')'] := by
    rw [listed]
    simp
  cases each with
  | nil => rfl
  | @cons var param vars params first others =>
    obtain ⟨varName, varType⟩ := var
    obtain ⟨name, type, variadic⟩ := param
    obtain ⟨named, is, type', typed, held⟩ := first
    cases others with
    | nil =>
      cases name with
      | none =>
        obtain rfl : varName = "" := named
        obtain rfl : variadic = false := single _ List.mem_cons_self
        have bare : varType.chars qualifier = lexemeChars type.lexemes := by
          have same : varType = type' := held
          rw [same]
          exact typed.chars
        rw [resultLexemes, resultChars, resultText, bareResult?]
        simp [bare, paramLexemes, labelLexemes]
      | some text =>
        have filled : varName.isEmpty = false := by
          obtain rfl : varName = text := named
          rw [← Bool.not_eq_true, String.isEmpty_iff]
          rintro rfl
          cases is "" rfl
        rw [resultLexemes, enclosed, resultChars, resultText, bareResult?]
        · simp [filled]
        · simp
        · simp
    | cons second more =>
      rw [resultLexemes, enclosed, resultChars, resultText, bareResult?]
      · simp
      · simp
      · simp
      · simp

theorem Signature.IsWrittenAs.mk_of_vars {results : List Var} {resultParams : List ParamMeaning}
    (taken : List.Forall₂ (Var.IsWrittenAs qualifier) vars params)
    (given : List.Forall₂ (Var.IsWrittenAs qualifier) results resultParams)
    (labelled : AreLabelled params) (labelledResults : AreLabelled resultParams)
    (spreads : ∀ param ∈ params.dropLast, param.variadic = false)
    (single : ∀ result ∈ resultParams, result.variadic = false) :
    (Signature.mk vars results (params.any ParamMeaning.variadic)).IsWrittenAs qualifier
      (.mk params resultParams) := by
  refine ⟨?_, ?_⟩
  · rw [SignatureMeaning.IsPlain]
    exact ⟨arePlainParams_of_written taken, arePlainParams_of_written given, labelled,
      labelledResults, spreads, single⟩
  · rw [chars_signature, listChars_written taken spreads, resultChars_written given single,
      SignatureMeaning.lexemes]
    simp

end Lists

namespace ResolvedType.IsWrittenAs

theorem struct {fields : List StructField} {meanings : List FieldMeaning}
    (each : List.Forall₂ (StructField.IsWrittenAs qualifier) fields meanings) :
    (ResolvedType.struct fields).IsWrittenAs qualifier (.struct meanings) := by
  refine ⟨by rw [TypeMeaning.IsPlain]; exact arePlainFields_of_written each, ?_, rfl⟩
  rw [chars_struct, map_fields each, TypeMeaning.lexemes]
  simp [lexemeChars_semicolons]

theorem interface {elems : List InterfaceElem} {meanings : List ElemMeaning}
    (each : List.Forall₂ (InterfaceElem.IsWrittenAs qualifier) elems meanings) :
    (ResolvedType.interface elems).IsWrittenAs qualifier (.interface meanings) := by
  refine ⟨by rw [TypeMeaning.IsPlain]; exact arePlainElems_of_written each, ?_, rfl⟩
  rw [chars_interface, map_elems each, TypeMeaning.lexemes]
  simp [lexemeChars_semicolons]

/-- A defined type is written with its arguments. -/
theorem withArgs {type : NamedType} {base : TypeMeaning} {args : List ResolvedType}
    {meanings : List TypeMeaning} (bare : type.args = [])
    (written : (ResolvedType.named type).IsWrittenAs qualifier base) (named : base.isTypeName = true)
    (each : List.Forall₂ (ResolvedType.IsWrittenAs qualifier) args meanings) (filled : meanings ≠ []) :
    (ResolvedType.named { type with args := args }).IsWrittenAs qualifier (.generic base meanings) := by
  obtain ⟨package, name, _, shape⟩ := type
  cases bare
  refine ⟨?_, ?_, rfl⟩
  · rw [TypeMeaning.IsPlain]
    exact ⟨named, written.plain, filled, arePlainTypes_of_written each⟩
  · cases each with
    | nil => exact absurd rfl filled
    | @cons first meaning rest meanings one others =>
      have chars := written.chars
      rw [ResolvedType.chars, ResolvedType.pieces, NamedType.pieces] at chars
      have listed := joinWith_types (.cons one others)
      rw [ResolvedType.chars, ResolvedType.pieces, NamedType.pieces, charsOf_append,
        ← List.singleton_append, charsOf_append, chars, charsOf_text, charsOf_argPieces, listed,
        TypeMeaning.lexemes]
      simp [lexemeChars_commas]

end ResolvedType.IsWrittenAs

end Scaffold.Go
