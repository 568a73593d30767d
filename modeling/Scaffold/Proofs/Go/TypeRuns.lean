import Scaffold.Proofs.Go.Phrase
import Scaffold.Proofs.Go.Runs
import Scaffold.Proofs.Go.Spelling

/-! Which form of a type is read at which token, and that types close the brackets they open. -/

namespace Scaffold.Go

open Reading Reader

/-- Reads a type that is at most so deep, with expressions for lengths. -/
def typeUpTo (depth : Nat) : Reader TypeExpr :=
  typeWithin (phrase (.rule (.expression true))) depth

/-- What can stand behind a type: the end of a statement or of the file, or what ends a list. -/
def Token.IsStop (token : Token) : Prop :=
  token.kind = .eof ∨ token.kind = .terminator ∨
    ∃ text ∈ [",", ")", "]", "\x7d"], token.isMark text = true

namespace Token.IsStop

variable {token : Token}

theorem kind (stops : token.IsStop) : token.kind ≠ .word ∧ token.kind ≠ .text := by
  rcases stops with eof | ended | ⟨text, -, is⟩
  · simp [eof]
  · simp [ended]
  · rcases Token.kind_of_isMark is with kind | kind <;> simp [kind]

/-- What stops a type is no other mark. -/
theorem isMark (stops : token.IsStop) {text : String} (other : text ∉ [",", ")", "]", "\x7d"]) :
    token.isMark text = false := by
  rcases stops with eof | ended | ⟨found, member, is⟩
  · exact Token.isMark_eq_false (by simp [eof]) (by simp [eof]) text
  · exact Token.isMark_eq_false (by simp [ended]) (by simp [ended]) text
  · refine Token.isMark_of_isMark is ?_
    rintro rfl
    exact other member

end Token.IsStop

/-- The arguments of a type that is named so far, if there are any. -/
def instanceOf (type : Reader TypeExpr) (base : TypeExpr) : Reader TypeExpr :=
  maybe (typeArgs type) >>= fun args => pure (args.elim base (.generic base))

/-- Reads the name of a type, perhaps behind that of a package. -/
def typeName : Reader TypeExpr :=
  word >>= fun first => maybe (mark "." *> word) >>= fun selected =>
    pure (selected.elim (.name first.text first.start) fun name =>
      .qualified first.text first.start name.text)

theorem namedType_eq (type : Reader TypeExpr) : namedType type = typeName >>= instanceOf type := by
  funext tokens
  rw [namedType, typeName, bind_run, bind_run, bind_run]
  cases word tokens with
  | none => rfl
  | some first =>
    simp only [Option.bind_some]
    rw [bind_run, bind_run]
    cases maybe (mark "." *> word) first.2 with
    | none => rfl
    | some selected =>
      obtain ⟨selected, rest⟩ := selected
      -- Either way what is named so far has its arguments behind it.
      cases selected <;>
      · simp only [Option.bind_some, Option.elim]
        rw [bind_run, pure_run, Option.bind_some, Option.bind_some, bind_run, instanceOf, bind_run]
        cases maybe (typeArgs type) rest with
        | none => rfl
        | some given =>
          obtain ⟨args, behind⟩ := given
          cases args <;> rfl

section Dispatch

variable {first : Token} {rest : List Token} {depth : Nat}

/-- The marks that types begin with. -/
def typeMarks : List String :=
  ["*", "(", "[", "map", "chan", "<-", "func", "struct", "interface"]

/-- No type begins with a token that is neither a word nor one of the marks of types. -/
theorem typeUpTo_none (plain : first.kind ≠ .word)
    (other : ∀ text ∈ typeMarks, first.isMark text = false) (depth : Nat) (rest : List Token) :
    typeUpTo depth (first :: rest) = none := by
  cases depth with
  | zero => rfl
  | succ depth =>
    simp only [typeMarks, List.forall_mem_cons] at other
    obtain ⟨h₁, h₂, h₃, h₄, h₅, h₆, h₇, h₈, h₉, -⟩ := other
    rw [typeUpTo, typeWithin, typeWith, bind_of_run (next_cons first rest),
      if_neg (by simpa using plain)]
    simp only [h₁, h₂, h₃, h₄, h₅, h₆, h₇, h₈, h₉, Bool.false_eq_true, if_false]
    rfl

theorem typeUpTo_stop (stops : first.IsStop) (depth : Nat) (rest : List Token) :
    typeUpTo depth (first :: rest) = none := by
  have apart : ∀ text ∈ typeMarks, text ∉ [",", ")", "]", "\x7d"] := by decide
  exact typeUpTo_none stops.kind.1 (fun text member => stops.isMark (apart text member)) depth rest

theorem typeUpTo_word (is : first.kind = .word) :
    typeUpTo (depth + 1) (first :: rest) = namedType (typeUpTo depth) (first :: rest) := by
  rw [typeUpTo, typeWithin, typeWith, bind_of_run (next_cons first rest), if_pos (by simp [is])]
  rfl

variable (reach : Reach)

theorem typeUpTo_pointer : typeUpTo (depth + 1) (reach.token .mark "*".toList :: rest) =
    (do
      let stray ← strayComment
      let elem ← typeUpTo depth
      return .pointer (stray.getD elem) : Reader TypeExpr) rest := by
  rw [typeUpTo, typeWithin, typeWith, bind_of_run (next_cons _ rest)]
  simp only [kind_token, isMark_mark]
  rfl

theorem typeUpTo_paren : typeUpTo (depth + 1) (reach.token .mark "(".toList :: rest) =
    (do
      let stray ← strayComment
      let inner ← typeUpTo depth
      let _ ← mark ")"
      return .paren (stray.getD inner) : Reader TypeExpr) rest := by
  rw [typeUpTo, typeWithin, typeWith, bind_of_run (next_cons _ rest)]
  simp only [kind_token, isMark_mark]
  rfl

theorem typeUpTo_slice (behind : Reach) :
    typeUpTo (depth + 1)
        (reach.token .mark "[".toList :: behind.token .mark "]".toList :: rest) =
      (TypeExpr.slice <$> typeUpTo depth) rest := by
  rw [typeUpTo, typeWithin, typeWith, bind_of_run (next_cons _ _)]
  simp only [kind_token, isMark_mark]
  rfl

theorem typeUpTo_array (other : first.isMark "]" = false) :
    typeUpTo (depth + 1) (reach.token .mark "[".toList :: first :: rest) =
      (withTaken (phrase (.rule (.expression true))) >>= fun length =>
        mark "]" *> (TypeExpr.array (sourceOf length.2) <$> typeUpTo depth)) (first :: rest) := by
  rw [typeUpTo, typeWithin, typeWith, bind_of_run (next_cons _ _)]
  simp only [kind_token, isMark_mark]
  have opened : mark "[" (reach.token .mark "[".toList :: first :: rest) =
      some (reach.token .mark "[".toList, first :: rest) := rfl
  refine (bind_of_run opened).trans ?_
  rw [bind_of_run (maybe_of_none (mark_of_not other rest))]
  rfl

theorem typeUpTo_map : typeUpTo (depth + 1) (reach.token .keyword "map".toList :: rest) =
    (do
      let _ ← mark "["
      let key ← typeUpTo depth
      let _ ← mark "]"
      return .map key (← typeUpTo depth) : Reader TypeExpr) rest := by
  rw [typeUpTo, typeWithin, typeWith, bind_of_run (next_cons _ rest)]
  simp only [kind_token, isMark_keyword]
  rfl

theorem typeUpTo_chan : typeUpTo (depth + 1) (reach.token .keyword "chan".toList :: rest) =
    channel (typeUpTo depth) rest := by
  rw [typeUpTo, typeWithin, typeWith, bind_of_run (next_cons _ rest)]
  simp only [kind_token, isMark_keyword]
  rfl

theorem typeUpTo_arrow : typeUpTo (depth + 1) (reach.token .mark "<-".toList :: rest) =
    (do
      let _ ← mark "chan"
      return .chan .receive (← typeUpTo depth) : Reader TypeExpr) rest := by
  rw [typeUpTo, typeWithin, typeWith, bind_of_run (next_cons _ rest)]
  simp only [kind_token, isMark_mark]
  rfl

theorem typeUpTo_func : typeUpTo (depth + 1) (reach.token .keyword "func".toList :: rest) =
    (TypeExpr.func <$> signature (typeUpTo depth)) rest := by
  rw [typeUpTo, typeWithin, typeWith, bind_of_run (next_cons _ rest)]
  simp only [kind_token, isMark_keyword]
  rfl

theorem typeUpTo_struct : typeUpTo (depth + 1) (reach.token .keyword "struct".toList :: rest) =
    (TypeExpr.struct <$> lines (field (typeUpTo depth))) rest := by
  rw [typeUpTo, typeWithin, typeWith, bind_of_run (next_cons _ rest)]
  simp only [kind_token, isMark_keyword]
  rfl

theorem typeUpTo_interface : typeUpTo (depth + 1) (reach.token .keyword "interface".toList :: rest) =
    (TypeExpr.interface <$> lines (elem (typeUpTo depth))) rest := by
  rw [typeUpTo, typeWithin, typeWith, bind_of_run (next_cons _ rest)]
  simp only [kind_token, isMark_keyword]
  rfl

end Dispatch

section Balance

variable {depth : Nat}

/-- A bracket cannot be closed where none is open. -/
theorem depth_of_closing {token : Token} {text : String} (closing : text ∈ [")", "]", "\x7d"])
    (is : token.isMark text = true) : token.depth 0 = none := by
  have closes := Token.closes_of_isMark closing is
  rw [Token.depth, Token.opens_of_closes closes, if_neg Bool.false_ne_true, if_pos closes,
    if_pos rfl]

/-- Tokens in front of a bar agree with themselves up to it, or to a bracket they do not open. -/
theorem exists_agreeWithin (front : List Token) {bar : Token} (barred : bar.isBar = true)
    (back : List Token) (opened : Nat) :
    ∃ count, AgreeWithin opened count (front ++ bar :: back) (front ++ bar :: back) := by
  induction front generalizing opened with
  | nil => exact ⟨0, .stop (.refl bar) (.inl barred)⟩
  | cons token front ih =>
    cases moves : token.depth opened with
    | none => exact ⟨0, .stop (.refl token) (.inr moves)⟩
    | some between =>
      obtain ⟨count, agree⟩ := ih between
      exact ⟨count + 1, .step (.refl token) moves agree⟩

/-- What is read as an expression closes the brackets that it opens. -/
theorem depthBehind_of_expression {front rest back : List Token} {bar : Token}
    (barred : bar.isBar = true) (read : phrase (.rule (.expression true))
      (front ++ (rest ++ bar :: back)) = some ((), rest ++ bar :: back)) (opened : Nat) :
    depthBehind opened front = some opened := by
  obtain ⟨count, agree⟩ := exists_agreeWithin (front ++ rest) barred back opened
  rw [List.append_assoc] at agree
  rcases phrase_alike (.expression true) _ _ agree with
    ⟨failed, -⟩ | ⟨_, _, taken, same, -, -, -, high, moves⟩
  · exact absurd (read.symm.trans failed) (by simp)
  · -- As much is taken as stands in front of the rest.
    have left := congrArg List.length (Prod.mk.inj (Option.some.inj (read.symm.trans same))).2
    have bound := agree.lt_length.1
    simp only [List.length_drop, List.length_append, List.length_cons] at left bound
    have all : taken = front.length := by omega
    rwa [all, List.take_left'] at moves
    rfl

/-- Balanced tokens in front of a bracket that they do not open agree with near ones up to it. -/
theorem agreeWithin_of_balanced {opened behind : Nat} {front front' back back' : List Token}
    {closing closing' : Token} (near : List.Forall₂ Token.Near front front')
    (last : closing.Near closing') (moves : depthBehind opened front = some behind)
    (closes : closing.depth behind = none) :
    AgreeWithin opened front.length (front ++ closing :: back) (front' ++ closing' :: back') := by
  induction near generalizing opened with
  | nil =>
    cases moves
    exact .stop last (.inr closes)
  | cons first _ ih =>
    obtain ⟨between, one, others⟩ := Option.bind_eq_some_iff.mp moves
    exact .step first one (ih others)

/-- Type arguments are no length of an array: behind them stands no type. -/
theorem typeUpTo_args {inner : List Token} {first closing stop : Token} {others : List Token}
    (begins : inner = first :: others) (other : first.isMark "]" = false)
    (balanced : depthBehind 0 inner = some 0) (closes : closing.isMark "]" = true)
    (stops : stop.IsStop) (reach : Reach) (rest : List Token) :
    typeUpTo depth (reach.token .mark "[".toList :: inner ++ closing :: stop :: rest) = none := by
  cases depth with
  | zero => rfl
  | succ depth =>
    have bracket : "]" ∈ [")", "]", "\x7d"] := by decide
    have unopened := depth_of_closing bracket closes
    subst begins
    -- An expression ends in front of some bracket that it does not open.
    have agree : AgreeWithin 0 (first :: others).length
        ((first :: others) ++ closing :: stop :: rest) ((first :: others) ++ closing :: stop :: rest) :=
      agreeWithin_of_balanced (List.forall₂_same.mpr fun token _ => .refl token) (.refl closing)
        balanced unopened
    rw [List.cons_append, List.cons_append, typeUpTo_array reach other]
    rcases phrase_alike (.expression true) _ _ agree with
      ⟨failed, -⟩ | ⟨_, _, taken, read, -, -, -, high, moves⟩
    · refine bind_of_none ?_
      rw [withTaken_run]
      exact congrArg (Option.map _) failed
    · rw [List.cons_append] at read
      rw [bind_run, withTaken_run, read, Option.map_some, Option.bind_some, ← List.cons_append,
        List.drop_append_of_le_length high]
      rw [List.take_append_of_le_length high] at moves
      cases left : (first :: others).drop taken with
      | nil => exact (seqRight_of_run (mark_of_isMark closes _)).trans (by
          rw [map_run, typeUpTo_stop stops, Option.map_none])
      | cons next more =>
        refine seqRight_of_none (mark_of_not ?_ _)
        by_contra is
        -- A bracket closed there would be one that was not opened.
        have unopened := depth_of_closing (by decide) (eq_true_of_ne_false is)
        rw [← List.take_append_drop taken (first :: others), left, depthBehind_append, moves,
          Option.bind_some, depthBehind, unopened] at balanced
        cases balanced

end Balance

/-- Elements that close the brackets they open, wherever they stand. -/
def IsBalanced (lexemes : List Lexeme) : Prop :=
  ∀ (reach : Reach) (opened : Nat), depthBehind opened (tokensFrom reach lexemes) = some opened

namespace IsBalanced

variable {first second lexemes : List Lexeme} {lists : List (List Lexeme)} {text : String}

theorem nil : IsBalanced [] := fun _ _ => rfl

theorem append (front : IsBalanced first) (back : IsBalanced second) :
    IsBalanced (first ++ second) := by
  intro reach opened
  rw [tokensFrom_append, depthBehind_append, front, Option.bind_some, back]

theorem cons {lexeme : Lexeme} (front : IsBalanced [lexeme]) (back : IsBalanced lexemes) :
    IsBalanced (lexeme :: lexemes) :=
  append front back

theorem blank : IsBalanced [.blank ' '] := fun _ _ => rfl

theorem name : IsBalanced [nameLexeme text] := fun _ _ => rfl

theorem semicolon : IsBalanced [.token .terminator [';']] := fun _ _ => rfl

/-- A mark that is no bracket changes nothing. -/
theorem mark (plain : isPlainMark text = true) : IsBalanced [markLexeme text] := by
  intro reach opened
  obtain ⟨closed, opens⟩ := Token.plain_of_isPlainMark plain (isMark_mark reach text text ▸ beq_self_eq_true text)
  rw [markLexeme, tokensFrom_token, tokensFrom_nil, depthBehind,
    Token.depth_of_plain closed opens]
  rfl

theorem keyword (plain : isPlainMark text = true) : IsBalanced [keywordLexeme text] := by
  intro reach opened
  obtain ⟨closed, opens⟩ := Token.plain_of_isPlainMark plain (isMark_keyword reach text text ▸ beq_self_eq_true text)
  rw [keywordLexeme, tokensFrom_token, tokensFrom_nil, depthBehind,
    Token.depth_of_plain closed opens]
  rfl

/-- Brackets around balanced elements are closed. -/
theorem enclosed {opening closing : String} (opens : opening ∈ ["(", "[", "\x7b"])
    (closes : closing ∈ [")", "]", "\x7d"]) (inner : IsBalanced lexemes) :
    IsBalanced (markLexeme opening :: lexemes ++ [markLexeme closing]) := by
  intro reach opened
  have up : (reach.token .mark opening.toList).depth opened = some (opened + 1) :=
    Token.depth_of_opens (Token.opens_of_isMark opens (by simp))
  have down : ∀ behind : Reach, (behind.token .mark closing.toList).depth (opened + 1) = some opened :=
    fun behind => Token.depth_of_closes (Token.closes_of_isMark closes (by simp))
  rw [markLexeme, markLexeme, tokensFrom_append, depthBehind_append, tokensFrom_token, depthBehind,
    up, Option.bind_some, inner, Option.bind_some, tokensFrom_token, tokensFrom_nil, depthBehind, down]
  rfl

/-- So are those of a list. -/
theorem separated {divider : Lexeme} (divides : IsBalanced [divider])
    (each : ∀ list ∈ lists, IsBalanced list) : IsBalanced (separated divider lists) := by
  cases lists with
  | nil => exact nil
  | cons first rest =>
    obtain ⟨one, others⟩ := List.forall_mem_cons.mp each
    refine append one ?_
    induction rest with
    | nil => exact nil
    | cons next rest ih =>
      obtain ⟨here, more⟩ := List.forall_mem_cons.mp others
      rw [List.flatMap_cons]
      exact append (cons divides (cons blank here))
        (ih (List.forall_mem_cons.mpr ⟨one, more⟩) more)

theorem label (name : Option String) : IsBalanced (labelLexemes name) := by
  cases name with
  | none => exact nil
  | some text => exact cons IsBalanced.name blank

end IsBalanced

/-- The length of an array is read as an expression, which closes its brackets. -/
theorem IsLength.isBalanced {length : String} (is : IsLength length) :
    IsBalanced (lengthLexemes length) := by
  intro reach opened
  let closing := reach.token .mark "]".toList
  let bar := reach.token .eof []
  have read : phrase (.rule (.expression true)) (tokensFrom reach (lengthLexemes length) ++
      ([closing] ++ bar :: [])) = some ((), [closing] ++ bar :: []) := is.reads reach reach [bar]
  exact depthBehind_of_expression rfl read opened

-- One case for each form of a type: its marks, and its parts between them.
mutual

theorem TypeMeaning.isBalanced : ∀ meaning : TypeMeaning, meaning.IsPlain →
    IsBalanced meaning.lexemes
  | .name _, _ => by
    rw [TypeMeaning.lexemes]
    exact .name
  | .qualified _ _, _ => by
    rw [TypeMeaning.lexemes]
    exact .cons .name (.cons (.mark (by decide)) .name)
  | .generic base args, plain => by
    rw [TypeMeaning.IsPlain] at plain
    rw [TypeMeaning.lexemes, List.append_assoc]
    exact .append (base.isBalanced plain.2.1) (.enclosed (by decide) (by decide)
      (.separated (.mark (by decide)) (balanced_types args plain.2.2.2)))
  | .pointer elem, plain => by
    rw [TypeMeaning.IsPlain] at plain
    rw [TypeMeaning.lexemes]
    exact .cons (.mark (by decide)) (elem.isBalanced plain)
  | .slice elem, plain => by
    rw [TypeMeaning.IsPlain] at plain
    rw [TypeMeaning.lexemes]
    have brackets : IsBalanced (markLexeme "[" :: [] ++ [markLexeme "]"]) :=
      .enclosed (by decide) (by decide) .nil
    exact .append brackets (elem.isBalanced plain)
  | .array length elem, plain => by
    rw [TypeMeaning.IsPlain] at plain
    rw [TypeMeaning.lexemes, ← List.singleton_append (l := elem.lexemes), ← List.append_assoc]
    exact .append (.enclosed (by decide) (by decide) plain.1.isBalanced) (elem.isBalanced plain.2)
  | .map key value, plain => by
    rw [TypeMeaning.IsPlain] at plain
    rw [TypeMeaning.lexemes, ← List.singleton_append (l := value.lexemes), ← List.append_assoc]
    exact .append (.cons (.keyword (by decide)) (.enclosed (by decide) (by decide)
      (key.isBalanced plain.1))) (value.isBalanced plain.2)
  | .chan .both elem, plain => by
    rw [TypeMeaning.IsPlain] at plain
    rw [TypeMeaning.lexemes, enclosedLexemes]
    refine .cons (.keyword (by decide)) (.cons .blank ?_)
    split
    · exact .enclosed (by decide) (by decide) (elem.isBalanced plain)
    · exact elem.isBalanced plain
  | .chan .send elem, plain => by
    rw [TypeMeaning.IsPlain] at plain
    rw [TypeMeaning.lexemes]
    exact .cons (.keyword (by decide)) (.cons (.mark (by decide)) (.cons .blank
      (elem.isBalanced plain)))
  | .chan .receive elem, plain => by
    rw [TypeMeaning.IsPlain] at plain
    rw [TypeMeaning.lexemes]
    exact .cons (.mark (by decide)) (.cons (.keyword (by decide)) (.cons .blank
      (elem.isBalanced plain)))
  | .func signature, plain => by
    rw [TypeMeaning.IsPlain] at plain
    rw [TypeMeaning.lexemes]
    exact .cons (.keyword (by decide)) (signature.isBalanced plain)
  | .struct fields, plain => by
    rw [TypeMeaning.IsPlain] at plain
    rw [TypeMeaning.lexemes]
    exact .cons (.keyword (by decide)) (.enclosed (by decide) (by decide)
      (.separated .semicolon (balanced_fields fields plain)))
  | .interface elems, plain => by
    rw [TypeMeaning.IsPlain] at plain
    rw [TypeMeaning.lexemes]
    exact .cons (.keyword (by decide)) (.enclosed (by decide) (by decide)
      (.separated .semicolon (balanced_elems elems plain)))

theorem balanced_types : ∀ types : List TypeMeaning, ArePlainTypes types →
    ∀ list ∈ typeLexemes types, IsBalanced list
  | [], _ => by simp [typeLexemes]
  | first :: rest, plain => by
    rw [ArePlainTypes] at plain
    rw [typeLexemes]
    exact List.forall_mem_cons.mpr ⟨first.isBalanced plain.1, balanced_types rest plain.2⟩

theorem SignatureMeaning.isBalanced : ∀ signature : SignatureMeaning, signature.IsPlain →
    IsBalanced signature.lexemes
  | .mk params results, plain => by
    rw [SignatureMeaning.IsPlain] at plain
    have given := balanced_params results plain.2.1
    have between : IsBalanced (resultLexemes results (paramLexemes results)) := by
      unfold resultLexemes
      split
      · exact .nil
      · rw [paramLexemes, paramLexemes] at given ⊢
        rw [List.flatten_cons, List.flatten_nil, List.append_nil]
        exact .cons .blank (given _ List.mem_cons_self)
      · exact .cons .blank (.enclosed (by decide) (by decide) (.separated (.mark (by decide)) given))
    rw [SignatureMeaning.lexemes, ← List.singleton_append (l := resultLexemes _ _),
      ← List.append_assoc]
    exact .append (.enclosed (by decide) (by decide)
      (.separated (.mark (by decide)) (balanced_params params plain.1))) between

theorem balanced_params : ∀ params : List ParamMeaning, ArePlainParams params →
    ∀ list ∈ paramLexemes params, IsBalanced list
  | [], _ => by simp [paramLexemes]
  | .mk name type variadic :: rest, plain => by
    rw [ArePlainParams] at plain
    rw [paramLexemes]
    refine List.forall_mem_cons.mpr ⟨?_, balanced_params rest plain.2.2⟩
    refine .append (.append (.label name) ?_) (type.isBalanced plain.2.1)
    split
    · exact .mark (by decide)
    · exact .nil

theorem balanced_fields : ∀ fields : List FieldMeaning, ArePlainFields fields →
    ∀ list ∈ fieldLexemes fields, IsBalanced list
  | [], _ => by simp [fieldLexemes]
  | .mk name type tag :: rest, plain => by
    rw [ArePlainFields] at plain
    obtain ⟨-, -, -, spelled, others⟩ := plain
    rw [fieldLexemes]
    exact List.forall_mem_cons.mpr ⟨.append (.label name) (type.isBalanced spelled),
      balanced_fields rest others⟩

theorem balanced_elems : ∀ elems : List ElemMeaning, ArePlainElems elems →
    ∀ list ∈ elemLexemes elems, IsBalanced list
  | [], _ => by simp [elemLexemes]
  | .method name signature :: rest, plain => by
    rw [ArePlainElems] at plain
    rw [elemLexemes]
    exact List.forall_mem_cons.mpr ⟨.cons .name (signature.isBalanced plain.2.1),
      balanced_elems rest plain.2.2⟩
  | .embedded type :: rest, plain => by
    rw [ArePlainElems] at plain
    rw [elemLexemes]
    exact List.forall_mem_cons.mpr ⟨type.isBalanced plain.1, balanced_elems rest plain.2⟩
  | .union _ :: _, plain => by
    rw [ArePlainElems] at plain
    exact plain.elim

end

end Scaffold.Go
