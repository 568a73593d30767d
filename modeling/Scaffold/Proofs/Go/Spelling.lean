import Scaffold.Proofs.Go.Meaning
import Scaffold.Proofs.Go.Opening
import Scaffold.Proofs.Go.Tokens

/-! A type spelled by its meaning is divided into the elements that it is spelled with. -/

namespace Scaffold.Go

/-- A length of an array that is read back wherever it stands in front of a closing bracket. -/
structure IsLength (length : String) : Prop where
  lexes (rest : List Char) : Lexes (length.toList ++ ']' :: rest) (lengthLexemes length) (']' :: rest)
  source (reach : Reach) : sourceOf (tokensFrom reach (lengthLexemes length)) = length
  begins (reach : Reach) : ∃ token rest, tokensFrom reach (lengthLexemes length) = token :: rest ∧
    token.isMark "]" = false
  reads (reach behind : Reach) (rest : List Token) : Reader.phrase (.rule (.expression true))
    (tokensFrom reach (lengthLexemes length) ++ behind.token .mark "]".toList :: rest) =
      some ((), behind.token .mark "]".toList :: rest)

namespace TypeMeaning

/-- Whether a type is just a name, perhaps behind that of a package. -/
def isTypeName : TypeMeaning → Bool
  | .name _ | .qualified _ _ => true
  | _ => false

/-- Whether a type is a name, perhaps with arguments. -/
def isNamed : TypeMeaning → Bool
  | .name _ | .qualified _ _ | .generic _ _ => true
  | _ => false

/-- Whether a type can be embedded in a struct. -/
def isEmbeddable : TypeMeaning → Bool
  | .pointer elem => elem.isNamed
  | type => type.isNamed

end TypeMeaning

/-- Whether all of some parameters have names, or none. -/
def AreLabelled (params : List ParamMeaning) : Prop :=
  (∀ param ∈ params, param.name.isSome = true) ∨ ∀ param ∈ params, param.name = none

mutual

/-- Whether a type can be spelled by its meaning alone. -/
def TypeMeaning.IsPlain : TypeMeaning → Prop
  | .name text => isName text.toList = true
  | .qualified package name => isName package.toList = true ∧ isName name.toList = true
  | .generic base args => base.isTypeName = true ∧ base.IsPlain ∧ args ≠ [] ∧ ArePlainTypes args
  | .pointer elem | .slice elem | .chan _ elem => elem.IsPlain
  | .array length elem => IsLength length ∧ elem.IsPlain
  | .map key value => key.IsPlain ∧ value.IsPlain
  | .func signature => signature.IsPlain
  | .struct fields => ArePlainFields fields
  | .interface elems => ArePlainElems elems
  | .comment _ | .approximate _ => False

/-- Whether all of some types can be spelled. -/
def ArePlainTypes : List TypeMeaning → Prop
  | [] => True
  | first :: rest => first.IsPlain ∧ ArePlainTypes rest

/-- Whether a signature can be spelled; only its last parameter may be spread. -/
def SignatureMeaning.IsPlain : SignatureMeaning → Prop
  | .mk params results => ArePlainParams params ∧ ArePlainParams results ∧ AreLabelled params ∧
    AreLabelled results ∧ (∀ param ∈ params.dropLast, param.variadic = false) ∧
    ∀ result ∈ results, result.variadic = false

/-- Whether all of some parameters can be spelled. -/
def ArePlainParams : List ParamMeaning → Prop
  | [] => True
  | .mk name type _ :: rest =>
    (∀ text ∈ name, isName text.toList = true) ∧ type.IsPlain ∧ ArePlainParams rest

/-- Whether all of some fields can be spelled, which have no tags. -/
def ArePlainFields : List FieldMeaning → Prop
  | [] => True
  | .mk name type tag :: rest => (∀ text ∈ name, isName text.toList = true) ∧
    (name = none → type.isEmbeddable = true) ∧ tag = none ∧ type.IsPlain ∧ ArePlainFields rest

/-- Whether all of some lines of an interface can be spelled. -/
def ArePlainElems : List ElemMeaning → Prop
  | [] => True
  | .method name signature :: rest =>
    isName name.toList = true ∧ signature.IsPlain ∧ ArePlainElems rest
  | .embedded type :: rest => type.IsPlain ∧ ArePlainElems rest
  | .union _ :: _ => False

end

/-- The characters of some elements in front of a text are divided into these elements. -/
def Divides (lexemes : List Lexeme) (after : List Char) : Prop :=
  Lexes (lexemeChars lexemes ++ after) lexemes after

namespace Divides

variable {first second lexemes : List Lexeme} {lexeme : Lexeme} {after : List Char}

theorem nil : Divides [] after :=
  Lexes.nil

theorem append (front : Divides first (lexemeChars second ++ after))
    (back : Divides second after) : Divides (first ++ second) after := by
  show Lexes _ _ _
  rw [lexemeChars_append, List.append_assoc]
  exact Lexes.append front back

theorem cons (front : Divides [lexeme] (lexemeChars lexemes ++ after))
    (back : Divides lexemes after) : Divides (lexeme :: lexemes) after :=
  append front back

/-- A bracket or a comma is read wherever it stands. -/
theorem mark {text : String} (plain : text ∈ ["(", ")", "[", "]", "\x7b", "\x7d", ",", "..."]) :
    Divides [markLexeme text] after := by
  have one : ∀ c : Char, text.toList = [c] →
      nextLexeme c after = some (.token .mark [c], after) → Divides [markLexeme text] after := by
    intro c same read
    have lexes := Lexes.cons read .nil
    simpa [Divides, markLexeme, same, Lexeme.chars] using lexes
  simp only [List.mem_cons, List.not_mem_nil, or_false] at plain
  -- No longer mark begins with any of these.
  rcases plain with rfl | rfl | rfl | rfl | rfl | rfl | rfl | rfl
  · exact one '(' (by decide) rfl
  · exact one ')' (by decide) rfl
  · exact one '[' (by decide) rfl
  · exact one ']' (by decide) rfl
  · exact one '\x7b' (by decide) rfl
  · exact one '\x7d' (by decide) rfl
  · exact one ',' (by decide) rfl
  · have read : nextLexeme '.' ('.' :: '.' :: after) = some (.token .mark ['.', '.', '.'], after) :=
      rfl
    exact Lexes.cons read .nil

theorem arrow : Divides [markLexeme "<-"] after := by
  have read : nextLexeme '<' ('-' :: after) = some (.token .mark ['<', '-'], after) := rfl
  exact Lexes.cons read .nil

theorem semicolon : Divides [.token .terminator [';']] after := by
  have read : nextLexeme ';' after = some (.token .terminator [';'], after) := rfl
  exact Lexes.cons read .nil

theorem blank : Divides [.blank ' '] after :=
  Lexes.cons (nextLexeme_blank (by decide) _) .nil

/-- A star is read as such unless it is part of an assignment. -/
theorem star (free : after.head? ≠ some '=') : Divides [markLexeme "*"] after := by
  have read : nextLexeme '*' after = some (.token .mark ['*'], after) := by
    cases after with
    | nil => rfl
    | cons c rest =>
      have other : c ≠ '=' := by simpa using free
      rw [nextLexeme_eq, if_neg (by decide), if_neg (by simp), if_neg (by simp), if_neg (by decide),
        if_neg (by simp [beginsNumber]), closedLexeme]
      simp [markText, marks, backquote, other.symm]
  exact Lexes.cons read .nil

/-- A dot in front of a name only selects that name. -/
theorem dot {name : List Char} (is : isName name = true) :
    Divides [markLexeme "."] (name ++ after) := by
  cases name with
  | nil => cases is
  | cons c more =>
    have start : Unicode.isIdentifierStart c = true := by
      simp only [isName, Bool.and_eq_true] at is
      exact is.1.1
    -- No digit begins a name, and neither does another dot.
    have digit : c.isDigit = false := by
      have none : ∀ code < 58, Unicode.isIdentifierStart (Char.ofNat code) = false := by decide
      by_contra digit
      simp only [Bool.not_eq_false, Char.isDigit, Bool.and_eq_true, decide_eq_true_eq] at digit
      have bound : c.toNat ≤ 57 := UInt32.le_iff_toNat_le.mp digit.2
      have not := none c.toNat (by omega)
      rw [Char.ofNat_toNat, start] at not
      cases not
    have other : c ≠ '.' := by
      rintro rfl
      exact absurd start (by decide)
    have read : nextLexeme '.' (c :: (more ++ after)) =
        some (.token .mark ['.'], c :: (more ++ after)) := by
      rw [nextLexeme_eq, if_neg (by decide), if_neg (by simp), if_neg (by simp), if_neg (by decide),
        if_neg (by simp [beginsNumber, digit]), closedLexeme]
      simp [markText, marks, backquote, other.symm]
    exact Lexes.cons read .nil

theorem name {text : String} (is : isName text.toList = true) (ends : EndsWord after) :
    Divides [nameLexeme text] after := by
  have read := lexes_name is ends
  simpa [Divides, nameLexeme, Lexeme.chars] using read

/-- A reserved word is read up to what does not continue it. -/
theorem keyword {text : String} (reserved : text ∈ ["map", "chan", "func", "struct", "interface"])
    (ends : EndsWord after) : Divides [keywordLexeme text] after := by
  have one : ∀ (c : Char) (more : List Char), text.toList = c :: more →
      Unicode.isIdentifierStart c = true → more.all Unicode.isIdentifierContinue = true →
      wordLexeme (c :: more) = keywordLexeme text → Divides [keywordLexeme text] after := by
    intro c more same start continued made
    have read := Lexes.cons (nextLexeme_word start (List.all_eq_true.mp continued) ends) .nil
    rw [made] at read
    simpa [Divides, keywordLexeme, same, Lexeme.chars] using read
  simp only [List.mem_cons, List.not_mem_nil, or_false] at reserved
  rcases reserved with rfl | rfl | rfl | rfl | rfl
  · exact one 'm' ['a', 'p'] (by decide) (by decide) (by decide) (by decide)
  · exact one 'c' ['h', 'a', 'n'] (by decide) (by decide) (by decide) (by decide)
  · exact one 'f' ['u', 'n', 'c'] (by decide) (by decide) (by decide) (by decide)
  · exact one 's' ['t', 'r', 'u', 'c', 't'] (by decide) (by decide) (by decide) (by decide)
  · exact one 'i' ['n', 't', 'e', 'r', 'f', 'a', 'c', 'e'] (by decide) (by decide) (by decide)
      (by decide)

/-- Elements of a list that each stand in front of what stops them, with separators between them. -/
theorem separated {separator : Lexeme} {c : Char} (chars : separator.chars = [c])
    (stop : c = ',' ∨ c = ';') (divides : ∀ after, Divides [separator] after)
    {lists : List (List Lexeme)}
    (each : ∀ list ∈ lists, ∀ after, Stops after → Divides list after) (stops : Stops after) :
    Divides (separated separator lists) after := by
  -- Behind any element comes a separator, or what stops the list.
  have behind : ∀ rest : List (List Lexeme),
      (∀ list ∈ rest, ∀ after, Stops after → Divides list after) →
      Divides (rest.flatMap fun next => separator :: .blank ' ' :: next) after ∧
        Stops (lexemeChars (rest.flatMap fun next => separator :: .blank ' ' :: next) ++ after) := by
    intro rest
    induction rest with
    | nil => exact fun _ => ⟨nil, stops⟩
    | cons next rest ih =>
      intro each
      obtain ⟨first, others⟩ := List.forall_mem_cons.mp each
      obtain ⟨divided, stopped⟩ := ih others
      rw [List.flatMap_cons]
      refine ⟨append (cons (divides _) (cons blank (first _ stopped))) divided, ?_⟩
      intro d head
      rw [List.cons_append, lexemeChars_cons, chars] at head
      obtain rfl := Option.some.inj head
      rcases stop with rfl | rfl <;> simp
  cases lists with
  | nil => exact nil
  | cons first rest =>
    obtain ⟨one, others⟩ := List.forall_mem_cons.mp each
    obtain ⟨divided, stopped⟩ := behind rest others
    exact append (one _ stopped) divided

theorem commas {lists : List (List Lexeme)}
    (each : ∀ list ∈ lists, ∀ after, Stops after → Divides list after) (stops : Stops after) :
    Divides (Go.separated (markLexeme ",") lists) after :=
  separated (c := ',') (by decide) (.inl rfl) (fun _ => mark (by decide)) each stops

theorem semicolons {lists : List (List Lexeme)}
    (each : ∀ list ∈ lists, ∀ after, Stops after → Divides list after) (stops : Stops after) :
    Divides (Go.separated (.token .terminator [';']) lists) after :=
  separated (c := ';') (by decide) (.inr rfl) (fun _ => semicolon) each stops

/-- A name that labels a type stands in front of a blank. -/
theorem label {name : Option String} (is : ∀ text ∈ name, isName text.toList = true) :
    Divides (labelLexemes name) after := by
  cases name with
  | none => exact nil
  | some text => exact cons (name (is text rfl) (endsWord_cons (by decide) _)) blank

end Divides

/-- The first element of a type that is spelled by its meaning. -/
def TypeMeaning.lead : TypeMeaning → Lexeme
  | .name text => nameLexeme text
  | .qualified package _ => nameLexeme package
  | .generic base _ => base.lead
  | .pointer _ => markLexeme "*"
  | .slice _ | .array _ _ => markLexeme "["
  | .map _ _ => keywordLexeme "map"
  | .chan .receive _ => markLexeme "<-"
  | .chan _ _ => keywordLexeme "chan"
  | .func _ => keywordLexeme "func"
  | .struct _ => keywordLexeme "struct"
  | .interface _ => keywordLexeme "interface"
  | .comment _ | .approximate _ => .blank ' '

namespace TypeMeaning

theorem lexemes_eq_lead : ∀ {meaning : TypeMeaning}, meaning.IsPlain →
    ∃ rest, meaning.lexemes = meaning.lead :: rest
  | .name _, _ | .qualified _ _, _ | .pointer _, _ | .slice _, _ | .array _ _, _ | .map _ _, _
  | .chan .both _, _ | .chan .send _, _ | .chan .receive _, _ | .func _, _ | .struct _, _
  | .interface _, _ => by
    rw [lexemes]
    exact ⟨_, rfl⟩
  | .generic base args, plain => by
    rw [IsPlain] at plain
    obtain ⟨rest, same⟩ := lexemes_eq_lead plain.2.1
    rw [lexemes, same]
    exact ⟨_, rfl⟩

/-- Characters that no name and no mark of a type begins with. -/
def foreignChars : List Char := ['=', '\uFEFF']

/-- No range of the tables holds the mark of a file. -/
theorem fileMark_outside : ∀ range ∈ Unicode.identifierStarts ++ Unicode.identifierMarks,
    range.2 < 0xFEFF ∨ 0xFEFF < range.1 := by
  decide +kernel

theorem isIdentifierContinue_foreign {c : Char} (member : c ∈ foreignChars) :
    Unicode.isIdentifierContinue c = false := by
  simp only [foreignChars, List.mem_cons, List.not_mem_nil, or_false] at member
  obtain rfl | rfl := member
  · decide
  · exact Unicode.isIdentifierContinue_of_outside (by decide) fileMark_outside

private theorem head_name_ne {text : String} (is : isName text.toList = true)
    {foreign : Char} (member : foreign ∈ foreignChars) (rest : List Char) :
    (text.toList ++ rest).head? ≠ some foreign := by
  intro begins
  obtain ⟨filled, letters, -⟩ := letters_of_isName is
  obtain ⟨c, more, same⟩ := List.exists_cons_of_ne_nil filled
  rw [same] at begins letters
  obtain rfl := Option.some.inj begins
  have letter := letters c List.mem_cons_self
  rw [isIdentifierContinue_foreign member] at letter
  cases letter

/-- No type begins with a sign of equality, or with the mark of a file. -/
theorem head_lead_ne {foreign : Char} (member : foreign ∈ foreignChars) :
    ∀ {meaning : TypeMeaning}, meaning.IsPlain → ∀ rest : List Char,
      (meaning.lead.chars ++ rest).head? ≠ some foreign
  | .name text, plain, rest => by
    rw [IsPlain] at plain
    exact head_name_ne plain member rest
  | .qualified package selected, plain, rest => by
    rw [IsPlain] at plain
    exact head_name_ne plain.1 member rest
  | .generic base args, plain, rest => by
    rw [IsPlain] at plain
    exact head_lead_ne member plain.2.1 rest
  | .pointer _, _, _ | .slice _, _, _ | .array _ _, _, _ | .map _ _, _, _
  | .chan .both _, _, _ | .chan .send _, _, _ | .chan .receive _, _, _ | .func _, _, _
  | .struct _, _, _ | .interface _, _, _ => by
    simp only [foreignChars, List.mem_cons, List.not_mem_nil, or_false] at member
    rcases member with rfl | rfl <;> rintro ⟨⟩

/-- So neither do the characters that it is spelled with. -/
theorem head_ne {meaning : TypeMeaning} (plain : meaning.IsPlain) {foreign : Char}
    (member : foreign ∈ foreignChars) (after : List Char) :
    (lexemeChars meaning.lexemes ++ after).head? ≠ some foreign := by
  obtain ⟨rest, same⟩ := lexemes_eq_lead plain
  rw [same, lexemeChars_cons, List.append_assoc]
  exact head_lead_ne member plain _

end TypeMeaning

/-- The name of a type is read in front of whatever does not continue it. -/
theorem TypeMeaning.divides_typeName {meaning : TypeMeaning} (isName : meaning.isTypeName = true)
    (plain : meaning.IsPlain) {after : List Char} (ends : EndsWord after) :
    Divides meaning.lexemes after := by
  cases meaning with
  | name text =>
    rw [TypeMeaning.IsPlain] at plain
    rw [TypeMeaning.lexemes]
    exact .name plain ends
  | qualified package name =>
    rw [TypeMeaning.IsPlain] at plain
    rw [TypeMeaning.lexemes]
    refine .cons (.name plain.1 (endsWord_cons (by decide) _)) (.cons ?_ (.name plain.2 ends))
    rw [lexemeChars_cons, List.append_assoc]
    exact .dot plain.2
  | _ => cases isName

theorem IsLength.divides {length : String} (is : IsLength length) (rest : List Char) :
    Divides (lengthLexemes length) (']' :: rest) := by
  have chars := (is.lexes []).chars
  have same : length.toList = lexemeChars (lengthLexemes length) := List.append_cancel_right chars
  show Lexes _ _ _
  rw [← same]
  exact is.lexes rest

/-- A parenthesis ends the word in front of a signature. -/
theorem SignatureMeaning.endsWord (signature : SignatureMeaning) (after : List Char) :
    EndsWord (lexemeChars signature.lexemes ++ after) := by
  obtain ⟨params, results⟩ := signature
  rw [SignatureMeaning.lexemes]
  exact endsWord_cons (by decide) _

/-- Results are read if each of them is. -/
theorem divides_results {results : List ParamMeaning}
    (each : ∀ list ∈ paramLexemes results, ∀ after, Stops after → Divides list after)
    {after : List Char} (stops : Stops after) :
    Divides (resultLexemes results (paramLexemes results)) after := by
  unfold resultLexemes
  split
  · exact .nil
  · -- A single type stands behind a blank.
    rw [paramLexemes, paramLexemes] at each ⊢
    rw [List.flatten_cons, List.flatten_nil, List.append_nil]
    exact .cons .blank (each _ List.mem_cons_self after stops)
  · refine .cons .blank (.cons (.mark (by decide)) ?_)
    exact .append (.commas each (closes_cons _).stops) (.mark (by decide))

-- One case for each form of a type: the marks around its parts, and the parts in front of them.
mutual

/-- A type is divided into its elements in front of whatever stops it. -/
theorem TypeMeaning.divides : ∀ meaning : TypeMeaning, meaning.IsPlain → ∀ after : List Char,
    Stops after → Divides meaning.lexemes after
  | .name text, plain, after, stops | .qualified package name, plain, after, stops =>
    TypeMeaning.divides_typeName rfl plain stops.endsWord
  | .generic base args, plain, after, stops => by
    rw [TypeMeaning.IsPlain] at plain
    obtain ⟨isName, named, -, spelled⟩ := plain
    rw [TypeMeaning.lexemes]
    refine .append (.append (TypeMeaning.divides_typeName isName named ?_) (.cons ?_ ?_)) ?_
    · exact endsWord_cons (by decide) _
    · exact .mark (by decide)
    · exact .commas (divides_types args spelled) (closes_cons _).stops
    · exact .mark (by decide)
  | .pointer elem, plain, after, stops => by
    rw [TypeMeaning.IsPlain] at plain
    rw [TypeMeaning.lexemes]
    exact .cons (.star (elem.head_ne plain (by decide) after)) (elem.divides plain after stops)
  | .slice elem, plain, after, stops => by
    rw [TypeMeaning.IsPlain] at plain
    rw [TypeMeaning.lexemes]
    exact .cons (.mark (by decide)) (.cons (.mark (by decide)) (elem.divides plain after stops))
  | .array length elem, plain, after, stops => by
    rw [TypeMeaning.IsPlain] at plain
    rw [TypeMeaning.lexemes]
    refine .append (.cons (.mark (by decide)) (plain.1.divides _)) ?_
    exact .cons (.mark (by decide)) (elem.divides plain.2 after stops)
  | .map key value, plain, after, stops => by
    rw [TypeMeaning.IsPlain] at plain
    rw [TypeMeaning.lexemes]
    refine .cons (.keyword (by decide) (endsWord_cons (by decide) _)) (.cons (.mark (by decide)) ?_)
    refine .append (key.divides plain.1 _ (closes_cons _).stops) ?_
    exact .cons (.mark (by decide)) (value.divides plain.2 after stops)
  | .chan .both elem, plain, after, stops => by
    rw [TypeMeaning.IsPlain] at plain
    rw [TypeMeaning.lexemes]
    refine .cons (.keyword (by decide) (endsWord_cons (by decide) _)) (.cons .blank ?_)
    rw [enclosedLexemes]
    split
    · refine .cons (.mark (by decide)) (.append (elem.divides plain _ (closes_cons _).stops) ?_)
      exact .mark (by decide)
    · exact elem.divides plain after stops
  | .chan .send elem, plain, after, stops => by
    rw [TypeMeaning.IsPlain] at plain
    rw [TypeMeaning.lexemes]
    refine .cons (.keyword (by decide) (endsWord_cons (by decide) _)) (.cons .arrow ?_)
    exact .cons .blank (elem.divides plain after stops)
  | .chan .receive elem, plain, after, stops => by
    rw [TypeMeaning.IsPlain] at plain
    rw [TypeMeaning.lexemes]
    refine .cons .arrow (.cons (.keyword (by decide) (endsWord_cons (by decide) _)) ?_)
    exact .cons .blank (elem.divides plain after stops)
  | .func signature, plain, after, stops => by
    rw [TypeMeaning.IsPlain] at plain
    rw [TypeMeaning.lexemes]
    exact .cons (.keyword (by decide) (signature.endsWord after)) (signature.divides plain after stops)
  | .struct fields, plain, after, stops => by
    rw [TypeMeaning.IsPlain] at plain
    rw [TypeMeaning.lexemes]
    refine .cons (.keyword (by decide) (endsWord_cons (by decide) _)) (.cons (.mark (by decide)) ?_)
    refine .append (.semicolons (divides_fields fields plain) (closes_cons _).stops) ?_
    exact .mark (by decide)
  | .interface elems, plain, after, stops => by
    rw [TypeMeaning.IsPlain] at plain
    rw [TypeMeaning.lexemes]
    refine .cons (.keyword (by decide) (endsWord_cons (by decide) _)) (.cons (.mark (by decide)) ?_)
    refine .append (.semicolons (divides_elems elems plain) (closes_cons _).stops) ?_
    exact .mark (by decide)

theorem divides_types : ∀ types : List TypeMeaning, ArePlainTypes types →
    ∀ list ∈ typeLexemes types, ∀ after : List Char, Stops after → Divides list after
  | [], _ => by simp [typeLexemes]
  | first :: rest, plain => by
    rw [ArePlainTypes] at plain
    rw [typeLexemes]
    exact List.forall_mem_cons.mpr ⟨first.divides plain.1, divides_types rest plain.2⟩

theorem SignatureMeaning.divides : ∀ signature : SignatureMeaning, signature.IsPlain →
    ∀ after : List Char, Stops after → Divides signature.lexemes after
  | .mk params results, plain, after, stops => by
    rw [SignatureMeaning.IsPlain] at plain
    obtain ⟨taken, given, -⟩ := plain
    rw [SignatureMeaning.lexemes]
    refine .append (.cons (.mark (by decide)) ?_) (.cons (.mark (by decide)) ?_)
    · exact .commas (divides_params params taken) (closes_cons _).stops
    · exact divides_results (divides_params results given) stops

theorem divides_params : ∀ params : List ParamMeaning, ArePlainParams params →
    ∀ list ∈ paramLexemes params, ∀ after : List Char, Stops after → Divides list after
  | [], _ => by simp [paramLexemes]
  | .mk name type variadic :: rest, plain => by
    rw [ArePlainParams] at plain
    rw [paramLexemes]
    refine List.forall_mem_cons.mpr ⟨fun after stops => ?_, divides_params rest plain.2.2⟩
    refine .append (.append (.label plain.1) ?_) (type.divides plain.2.1 after stops)
    split
    · exact .mark (by decide)
    · exact .nil

theorem divides_fields : ∀ fields : List FieldMeaning, ArePlainFields fields →
    ∀ list ∈ fieldLexemes fields, ∀ after : List Char, Stops after → Divides list after
  | [], _ => by simp [fieldLexemes]
  | .mk name type tag :: rest, plain => by
    rw [ArePlainFields] at plain
    obtain ⟨named, -, -, spelled, others⟩ := plain
    rw [fieldLexemes]
    refine List.forall_mem_cons.mpr ⟨fun after stops => ?_, divides_fields rest others⟩
    exact .append (.label named) (type.divides spelled after stops)

theorem divides_elems : ∀ elems : List ElemMeaning, ArePlainElems elems →
    ∀ list ∈ elemLexemes elems, ∀ after : List Char, Stops after → Divides list after
  | [], _ => by simp [elemLexemes]
  | .method name signature :: rest, plain => by
    rw [ArePlainElems] at plain
    rw [elemLexemes]
    refine List.forall_mem_cons.mpr ⟨fun after stops => ?_, divides_elems rest plain.2.2⟩
    exact .cons (.name plain.1 (signature.endsWord after)) (signature.divides plain.2.1 after stops)
  | .embedded type :: rest, plain => by
    rw [ArePlainElems] at plain
    rw [elemLexemes]
    exact List.forall_mem_cons.mpr ⟨type.divides plain.1, divides_elems rest plain.2⟩
  | .union _ :: _, plain => by
    rw [ArePlainElems] at plain
    exact plain.elim

end

end Scaffold.Go
