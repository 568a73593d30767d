import Scaffold.Proofs.Go.TypeRuns

/-! Named types are read back, with or without arguments, and no type stands behind their first word. -/

namespace Scaffold.Go

open Reading Reader

section Named

variable {type : Reader TypeExpr} {lexemes : List Lexeme} {meaning : TypeMeaning}

/-- What some elements are read as in front of whatever stops a type: a type of some meaning. -/
def ReadsType (type : Reader TypeExpr) (lexemes : List Lexeme) (meaning : TypeMeaning) : Prop :=
  IsReadAs Token.IsStop type lexemes (·.meaning = meaning)

theorem union_reads (reads : ReadsType type lexemes meaning) :
    IsReadAs Token.IsStop (union type) lexemes fun types =>
      ∃ expr, types = [expr] ∧ expr.meaning = meaning := by
  intro reach stop rest stops
  obtain ⟨expr, read, same⟩ := reads reach stop rest stops
  have first : term type (tokensFrom reach lexemes ++ stop :: rest) = some (expr, stop :: rest) :=
    either_of_run read
  refine ⟨[expr], ?_, expr, rfl, same⟩
  rw [union, bind_of_run first]
  exact bind_of_run (many_of_none (seqRight_of_none (mark_of_not (stops.isMark (by decide)) rest)))

/-- A comma or a bracket can stop a type. -/
theorem isStop_mark {text : String} (member : text ∈ [",", ")", "]", "\x7d"]) (reach : Reach) :
    (reach.token .mark text.toList).IsStop :=
  .inr (.inr ⟨text, member, by simp⟩)

/-- Types that each stand for one of some meanings. -/
theorem typeMeanings_eq {types : List (List TypeExpr)} {meanings : List TypeMeaning}
    (each : List.Forall₂ (fun types meaning =>
      ∃ expr : TypeExpr, types = [expr] ∧ expr.meaning = meaning) types meanings) :
    typeMeanings (types.filterMap List.head?) = meanings := by
  induction each with
  | nil => rfl
  | cons first _ ih =>
    obtain ⟨expr, rfl, rfl⟩ := first
    simp [typeMeanings, ih]

/-- Elements of a list are read up to a mark that is no comma. -/
theorem commaSeparated_reads {α β : Type} {stops : Token → Prop} {reader : Reader α}
    {related : α → β → Prop} {lists : List (List Lexeme)} {means : List β} (text : String)
    (each : List.Forall₂ (fun list meaning => IsReadAs stops reader list (related · meaning)) lists means)
    (filled : lists ≠ []) (comma : ∀ reach : Reach, stops (reach.token .mark ",".toList))
    (closing : ∀ reach : Reach, stops (reach.token .mark text.toList)) (apart : text ≠ ",")
    (reach behind : Reach) (rest : List Token) : ∃ values,
    commaSeparated reader (tokensFrom reach (separated (markLexeme ",") lists) ++
      behind.token .mark text.toList :: rest) =
        some (values, behind.token .mark text.toList :: rest) ∧ List.Forall₂ related values means := by
  cases each with
  | nil => exact absurd rfl filled
  | cons first others =>
    refine separatedBy_reads first others (fun reach rest => ⟨_, rfl⟩) comma (closing behind) ?_ reach
      rest
    exact mark_of_not (isMark_other apart behind)

/-- Arguments between brackets are read in front of anything. -/
theorem typeArgs_reads {lists : List (List Lexeme)} {args : List TypeMeaning}
    (each : List.Forall₂ (ReadsType type) lists args) (filled : lists ≠ []) (reach behind : Reach)
    (rest : List Token) : ∃ types,
    typeArgs type (reach.token .mark "[".toList :: tokensFrom (reach.behindToken .mark "[".toList)
      (separated (markLexeme ",") lists) ++ behind.token .mark "]".toList :: rest) =
        some (types, rest) ∧ typeMeanings types = args := by
  obtain ⟨types, run, all⟩ := commaSeparated_reads "]" (each.imp fun _ _ reads => union_reads reads)
    filled (isStop_mark (by decide)) (isStop_mark (by decide)) (by decide)
    (reach.behindToken .mark "[".toList) behind rest
  refine ⟨types.filterMap List.head?, ?_, typeMeanings_eq all⟩
  have opened : ∀ more, mark "[" (reach.token .mark "[".toList :: more) =
    some (reach.token .mark "[".toList, more) := fun _ => rfl
  rw [typeArgs, List.cons_append, bind_of_run (opened _), bind_of_run run]
  rfl

/-- The name of a type is read in front of what selects nothing. -/
theorem typeName_reads (named : meaning.isTypeName = true) (reach : Reach) {next : Token}
    (other : next.isMark "." = false) (rest : List Token) : ∃ base, base.meaning = meaning ∧
      typeName (tokensFrom reach meaning.lexemes ++ next :: rest) = some (base, next :: rest) := by
  have text : ∀ (reach : Reach) (text : String), (reach.token .word text.toList).text = text :=
    fun _ _ => String.ofList_toList
  cases meaning with
  | name name =>
    refine ⟨.name name reach.offset, rfl, ?_⟩
    rw [TypeMeaning.lexemes, nameLexeme, tokensFrom_token, tokensFrom_nil, List.singleton_append,
      typeName, bind_of_run (word_of_kind rfl _),
      bind_of_run (maybe_of_none (seqRight_of_none (mark_of_not other rest))), text]
    rfl
  | qualified package name =>
    refine ⟨.qualified package reach.offset name, rfl, ?_⟩
    rw [TypeMeaning.lexemes, nameLexeme, markLexeme, nameLexeme, tokensFrom_token, tokensFrom_token,
      tokensFrom_token, tokensFrom_nil, typeName]
    refine (bind_of_run (word_of_kind rfl _)).trans ?_
    have selected : ∀ (dot name : Reach) (text : List Char), (mark "." *> word)
        (dot.token .mark ".".toList :: name.token .word text :: next :: rest) =
          some (name.token .word text, next :: rest) := fun _ _ _ => rfl
    refine (bind_of_run (maybe_of_run (selected _ _ _))).trans ?_
    rw [Option.elim_some, text, text]
    rfl
  | _ => cases named

theorem namedType_reads_name (named : meaning.isTypeName = true) :
    ReadsType (namedType type) meaning.lexemes meaning := by
  intro reach stop rest stops
  obtain ⟨base, same, read⟩ := typeName_reads named reach (stops.isMark (by decide)) rest
  refine ⟨base, ?_, same⟩
  have bare : typeArgs type (stop :: rest) = none :=
    bind_of_none (mark_of_not (stops.isMark (by decide)) rest)
  rw [namedType_eq, bind_of_run read]
  exact bind_of_run (maybe_of_none bare)

variable {base : TypeMeaning} {args : List TypeMeaning}

/-- The tokens of a type with arguments. -/
theorem tokensFrom_generic (reach : Reach) (base : TypeMeaning) (args : List TypeMeaning) :
    ∃ front behind : Reach, ∀ rest, tokensFrom reach (TypeMeaning.generic base args).lexemes ++ rest =
      tokensFrom reach base.lexemes ++ front.token .mark "[".toList ::
        (tokensFrom (front.behindToken .mark "[".toList) (separated (markLexeme ",") (typeLexemes args)) ++
          behind.token .mark "]".toList :: rest) := by
  refine ⟨reachBehind reach base.lexemes, reachBehind reach (base.lexemes ++ markLexeme "[" ::
    separated (markLexeme ",") (typeLexemes args)), fun rest => ?_⟩
  rw [TypeMeaning.lexemes, tokensFrom_append, tokensFrom_append, List.append_assoc, List.append_assoc]
  rfl

theorem namedType_reads_generic (named : base.isTypeName = true)
    (each : List.Forall₂ (ReadsType type) (typeLexemes args) args) (filled : args ≠ []) :
    ReadsType (namedType type) (TypeMeaning.generic base args).lexemes (.generic base args) := by
  intro reach stop rest stops
  obtain ⟨front, behind, made⟩ := tokensFrom_generic reach base args
  have bracket : (front.token .mark "[".toList).isMark "." = false := isMark_other (by decide) front
  obtain ⟨expr, same, read⟩ := typeName_reads named reach bracket
    (tokensFrom (front.behindToken .mark "[".toList) (separated (markLexeme ",") (typeLexemes args)) ++
      behind.token .mark "]".toList :: stop :: rest)
  have some : typeLexemes args ≠ [] := by
    cases args with
    | nil => exact absurd rfl filled
    | cons => simp [typeLexemes]
  obtain ⟨types, run, all⟩ := typeArgs_reads each some front behind (stop :: rest)
  refine ⟨.generic expr types, ?_, by simp only [TypeExpr.meaning, same, all]⟩
  rw [made, namedType_eq, bind_of_run read]
  exact bind_of_run (maybe_of_run run)

end Named

section Begins

variable {meaning : TypeMeaning} {reach : Reach}

/-- The marks that types begin with which are spelled by their meaning. -/
def leadMarks : List String :=
  ["*", "[", "map", "chan", "<-", "func", "struct", "interface"]

/-- What the first token of a type tells of it. -/
structure TypeMeaning.BeginsWith (meaning : TypeMeaning) (reach : Reach) (first : Token) : Prop where
  comments : first.comments = reach.comments
  word : meaning.isNamed = true → first.kind = .word
  mark : meaning.isNamed = false → ∃ text ∈ leadMarks, first.isMark text = true
  receives : first.isMark "<-" = meaning.isReceive
  channel : first.isMark "chan" = true → ∃ elem, meaning = .chan .both elem ∨ meaning = .chan .send elem

/-- Where a type begins with a word, it is a name. -/
theorem beginsWith_word {first : Token} (named : meaning.isNamed = true)
    (comments : first.comments = reach.comments) (word : first.kind = .word) :
    meaning.BeginsWith reach first := by
  have noMark : ∀ text, first.isMark text = false :=
    Token.isMark_eq_false (by simp [word]) (by simp [word])
  refine ⟨comments, fun _ => word, fun not => ?_, ?_, fun is => ?_⟩
  · rw [named] at not
    cases not
  · rw [noMark]
    cases meaning <;> first | rfl | cases named
  · rw [noMark] at is
    cases is

/-- Where it begins with a mark, it is none. -/
theorem beginsWith_mark {kind : TokenKind} (text : String) (member : text ∈ leadMarks)
    (isMark : kind = .mark ∨ kind = .keyword) (other : meaning.isNamed = false)
    (receives : (text == "<-") = meaning.isReceive)
    (channel : text = "chan" → ∃ elem, meaning = .chan .both elem ∨ meaning = .chan .send elem) :
    meaning.BeginsWith reach (reach.token kind text.toList) := by
  have same : ∀ found, (reach.token kind text.toList).isMark found = (text == found) := by
    intro found
    rcases isMark with rfl | rfl
    · exact isMark_mark reach text found
    · exact isMark_keyword reach text found
  refine ⟨rfl, ?_, fun _ => ⟨text, member, ?_⟩, ?_, fun is => ?_⟩
  · rw [other]
    rintro ⟨⟩
  · rw [same, beq_self_eq_true]
  · rw [same, receives]
  · rw [same] at is
    exact channel (eq_of_beq is)

/-- The first token of a type that is spelled by its meaning. -/
theorem TypeMeaning.begins : ∀ meaning : TypeMeaning, meaning.IsPlain → ∀ reach : Reach,
    ∃ first others, tokensFrom reach meaning.lexemes = first :: others ∧
      meaning.BeginsWith reach first
  | .name text, _, reach => by
    rw [lexemes]
    exact ⟨_, _, rfl, beginsWith_word rfl rfl rfl⟩
  | .qualified package selected, _, reach => by
    rw [lexemes]
    exact ⟨_, _, rfl, beginsWith_word rfl rfl rfl⟩
  | .generic base args, plain, reach => by
    rw [IsPlain] at plain
    obtain ⟨first, others, made, begins⟩ := base.begins plain.2.1 reach
    have word : first.kind = .word := begins.word (by
      cases base <;> first | rfl | exact plain.1)
    rw [lexemes, List.append_assoc, tokensFrom_append, made]
    exact ⟨_, _, rfl, beginsWith_word rfl begins.comments word⟩
  | .pointer _, _, reach => by
    rw [lexemes]
    exact ⟨_, _, rfl, beginsWith_mark "*" (by decide) (.inl rfl) rfl rfl (by simp)⟩
  | .slice _, _, reach | .array _ _, _, reach => by
    rw [lexemes]
    exact ⟨_, _, rfl, beginsWith_mark "[" (by decide) (.inl rfl) rfl rfl (by simp)⟩
  | .map _ _, _, reach => by
    rw [lexemes]
    exact ⟨_, _, rfl, beginsWith_mark "map" (by decide) (.inr rfl) rfl rfl (by simp)⟩
  | .chan .both elem, _, reach => by
    rw [lexemes]
    exact ⟨_, _, rfl, beginsWith_mark "chan" (by decide) (.inr rfl) rfl rfl
      fun _ => ⟨elem, .inl rfl⟩⟩
  | .chan .send elem, _, reach => by
    rw [lexemes]
    exact ⟨_, _, rfl, beginsWith_mark "chan" (by decide) (.inr rfl) rfl rfl
      fun _ => ⟨elem, .inr rfl⟩⟩
  | .chan .receive _, _, reach => by
    rw [lexemes]
    exact ⟨_, _, rfl, beginsWith_mark "<-" (by decide) (.inl rfl) rfl rfl (by simp)⟩
  | .func _, _, reach => by
    rw [lexemes]
    exact ⟨_, _, rfl, beginsWith_mark "func" (by decide) (.inr rfl) rfl rfl (by simp)⟩
  | .struct _, _, reach => by
    rw [lexemes]
    exact ⟨_, _, rfl, beginsWith_mark "struct" (by decide) (.inr rfl) rfl rfl (by simp)⟩
  | .interface _, _, reach => by
    rw [lexemes]
    exact ⟨_, _, rfl, beginsWith_mark "interface" (by decide) (.inr rfl) rfl rfl (by simp)⟩

/-- A type that is no name begins with no word. -/
theorem TypeMeaning.BeginsWith.kind {first : Token} (begins : meaning.BeginsWith reach first)
    (other : meaning.isNamed = false) : first.kind ≠ .word := by
  obtain ⟨text, -, is⟩ := begins.mark other
  rcases Token.kind_of_isMark is with kind | kind <;> simp [kind]

/-- No type begins with any other mark. -/
theorem TypeMeaning.BeginsWith.isMark {first : Token} (begins : meaning.BeginsWith reach first)
    {text : String} (other : text ∉ leadMarks) : first.isMark text = false := by
  cases named : meaning.isNamed with
  | true =>
    have word := begins.word named
    exact Token.isMark_eq_false (by simp [word]) (by simp [word]) text
  | false =>
    obtain ⟨found, member, is⟩ := begins.mark named
    refine Token.isMark_of_isMark is ?_
    rintro rfl
    exact other member

end Begins

section Alone

variable {meaning : TypeMeaning} {limit : Nat} {type : Reader TypeExpr}

/-- All types with fewer elements than a limit are read back by their meanings. -/
def ReadsBelow (limit : Nat) (type : Reader TypeExpr) : Prop :=
  ∀ meaning : TypeMeaning, meaning.IsPlain → tokenCount meaning.lexemes < limit →
    ReadsType type meaning.lexemes meaning

theorem typeLexemes_eq_map (types : List TypeMeaning) :
    typeLexemes types = types.map TypeMeaning.lexemes := by
  induction types with
  | nil => rfl
  | cons first rest ih => rw [typeLexemes, ih, List.map_cons]

theorem arePlainTypes_iff {types : List TypeMeaning} :
    ArePlainTypes types ↔ ∀ type ∈ types, type.IsPlain := by
  induction types with
  | nil => simp [ArePlainTypes]
  | cons first rest ih => rw [ArePlainTypes, ih, List.forall_mem_cons]

/-- A list of elements has no more tokens than all of them together. -/
theorem tokenCount_le_separated {list : List Lexeme} {lists : List (List Lexeme)} (divider : Lexeme)
    (member : list ∈ lists) : tokenCount list ≤ tokenCount (separated divider lists) := by
  have within : ∀ rest : List (List Lexeme), list ∈ rest →
      tokenCount list ≤ tokenCount (furtherLexemes divider rest) := by
    intro rest member
    induction rest with
    | nil => cases member
    | cons next rest ih =>
      rw [furtherLexemes, List.flatMap_cons, tokenCount_append, ← List.singleton_append,
        tokenCount_append, tokenCount_blank]
      rcases List.mem_cons.mp member with rfl | other
      · omega
      · have later := ih other
        rw [furtherLexemes] at later
        omega
  cases lists with
  | nil => cases member
  | cons first rest =>
    rw [separated, tokenCount_append]
    rcases List.mem_cons.mp member with rfl | other
    · omega
    · have later := within rest other
      rw [furtherLexemes] at later
      omega

theorem args_read {args : List TypeMeaning} (reads : ReadsBelow limit type)
    (plain : ArePlainTypes args)
    (short : tokenCount (separated (markLexeme ",") (typeLexemes args)) < limit) :
    List.Forall₂ (ReadsType type) (typeLexemes args) args := by
  rw [typeLexemes_eq_map] at short ⊢
  rw [List.forall₂_map_left_iff]
  refine List.forall₂_same.mpr fun arg member => ?_
  refine reads arg (arePlainTypes_iff.mp plain arg member) ?_
  have listed : arg.lexemes ∈ args.map TypeMeaning.lexemes := List.mem_map_of_mem member
  have bound := tokenCount_le_separated (markLexeme ",") listed
  omega

/-- Between the brackets around arguments all brackets are closed, and the first token closes none. -/
theorem args_balanced {args : List TypeMeaning} (plain : ArePlainTypes args) (filled : args ≠ [])
    (reach : Reach) :
    ∃ first others, tokensFrom reach (separated (markLexeme ",") (typeLexemes args)) =
      first :: others ∧ first.isMark "]" = false ∧ depthBehind 0 (first :: others) = some 0 := by
  have all := arePlainTypes_iff.mp plain
  have comma : IsBalanced [markLexeme ","] := .mark (by decide)
  have balanced := IsBalanced.separated comma (balanced_types args plain) reach 0
  cases args with
  | nil => exact absurd rfl filled
  | cons arg args =>
    obtain ⟨first, others, made, begins⟩ := arg.begins (all arg List.mem_cons_self) reach
    rw [typeLexemes, separated, tokensFrom_append, made, List.cons_append] at balanced ⊢
    exact ⟨first, _, rfl, begins.isMark (by decide), balanced⟩

/-- Behind the word that a name begins with stands no type, and only a dot or a bracket of its own. -/
theorem TypeMeaning.word_alone (named : meaning.isNamed = true) (plain : meaning.IsPlain)
    (reach : Reach) {stop : Token} (stops : stop.IsStop) (rest : List Token) :
    ∃ first next more, tokensFrom reach meaning.lexemes ++ stop :: rest = first :: next :: more ∧
      first.kind = .word ∧ (∀ depth, typeUpTo depth (next :: more) = none) ∧
        ∀ text ∉ [".", "["], stop.isMark text = false → next.isMark text = false := by
  have selects : ∀ (reach : Reach) rest depth,
      typeUpTo depth (reach.token .mark ".".toList :: rest) = none := by
    intro reach rest depth
    refine typeUpTo_none (by simp) (fun text member => isMark_other ?_ reach) depth rest
    rintro rfl
    exact absurd member (by decide)
  have own : ∀ found ∈ [".", "["], ∀ (reach : Reach), ∀ text ∉ [".", "["], stop.isMark text = false →
      (reach.token .mark found.toList).isMark text = false := by
    intro found member reach text other _
    refine isMark_other ?_ reach
    rintro rfl
    exact other member
  cases meaning with
  | name text =>
    rw [TypeMeaning.lexemes]
    exact ⟨_, stop, rest, rfl, rfl, fun depth => typeUpTo_stop stops depth rest, fun _ _ apart => apart⟩
  | qualified package selected =>
    rw [TypeMeaning.lexemes]
    exact ⟨_, _, _, rfl, rfl, selects _ _, own "." (by decide) _⟩
  | generic base args =>
    rw [TypeMeaning.IsPlain] at plain
    obtain ⟨typeName, -, filled, spelled⟩ := plain
    obtain ⟨front, behind, made⟩ := tokensFrom_generic reach base args
    obtain ⟨inner, more, same, other, balanced⟩ := args_balanced spelled filled
      (front.behindToken .mark "[".toList)
    rw [made, same]
    cases base with
    | name text =>
      rw [TypeMeaning.lexemes]
      refine ⟨_, _, _, rfl, rfl, fun depth => ?_, own "[" (by decide) _⟩
      have closes : (behind.token .mark "]".toList).isMark "]" = true := isMark_mark behind _ _
      exact typeUpTo_args rfl other balanced closes stops front rest
    | qualified package selected =>
      rw [TypeMeaning.lexemes]
      exact ⟨_, _, _, rfl, rfl, selects _ _, own "." (by decide) _⟩
    | _ => cases typeName
  | _ => cases named

/-- A name is read back, perhaps with arguments. -/
theorem namedType_reads (named : meaning.isNamed = true) (plain : meaning.IsPlain)
    (reads : ReadsBelow limit type) (short : tokenCount meaning.lexemes ≤ limit) :
    ReadsType (namedType type) meaning.lexemes meaning := by
  cases meaning with
  | name | qualified => exact namedType_reads_name rfl
  | generic base args =>
    rw [TypeMeaning.IsPlain] at plain
    obtain ⟨typeName, -, filled, spelled⟩ := plain
    rw [TypeMeaning.lexemes] at short
    simp only [tokenCount_append, tokenCount_mark] at short
    exact namedType_reads_generic typeName (args_read reads spelled (by omega)) filled
  | _ => cases named

end Alone

end Scaffold.Go
