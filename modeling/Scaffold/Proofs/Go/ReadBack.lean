import Scaffold.Proofs.Go.Signatures

/-! A type that is spelled by its meaning is read back as a type of this meaning. -/

namespace Scaffold.Go

open Reading Reader

section Rows

/-- What can stand behind a line of a struct or an interface. -/
def Token.EndsLine (token : Token) : Prop :=
  token.kind = .terminator ∨ token.isMark "\x7d" = true

theorem Token.EndsLine.isStop {token : Token} (ends : token.EndsLine) : token.IsStop :=
  ends.elim (fun ended => .inr (.inl ended)) fun closing =>
    .inr (.inr ⟨"\x7d", by decide, closing⟩)

/-- Lines between braces are read back in front of anything. -/
theorem lines_read {α β : Type} {line : Reader α} {related : α → β → Prop}
    {lists : List (List Lexeme)} {means : List β}
    (each : List.Forall₂ (fun list meaning =>
      IsReadAs Token.EndsLine line list (related · meaning)) lists means)
    (fails : ∀ (reach : Reach) rest, line (reach.token .mark "\x7d".toList :: rest) = none)
    (reach : Reach) (rest : List Token) : ∃ values,
    lines line (tokensFrom reach (markLexeme "\x7b" ::
      separated (.token .terminator [';']) lists ++ [markLexeme "\x7d"]) ++ rest) =
        some (values, rest) ∧ List.Forall₂ related values means := by
  let inner := reach.behindToken .mark "\x7b".toList
  let behind := reachBehind inner (separated (.token .terminator [';']) lists)
  have whole : tokensFrom reach (markLexeme "\x7b" ::
      separated (.token .terminator [';']) lists ++ [markLexeme "\x7d"]) ++ rest =
      reach.token .mark "\x7b".toList ::
        (tokensFrom inner (separated (.token .terminator [';']) lists) ++
          behind.token .mark "\x7d".toList :: rest) := by
    rw [tokensFrom_append, List.append_assoc]
    rfl
  have opened : ∀ more, mark "\x7b" (reach.token .mark "\x7b".toList :: more) =
    some (reach.token .mark "\x7b".toList, more) := fun _ => rfl
  rw [whole, lines, bind_of_run (opened _)]
  cases each with
  | nil =>
    refine ⟨[], ?_, .nil⟩
    rw [separated, tokensFrom_nil, List.nil_append, bind_of_run (maybe_of_none (fails behind rest))]
    rfl
  | @cons list meaning lists means first others =>
    let next := reachBehind inner list
    have closing : (behind.token .mark "\x7d".toList).EndsLine := .inr (isMark_mark behind _ _)
    have divider : ∀ reach : Reach, (reach.token .terminator [';']).EndsLine := fun _ => .inl rfl
    have divides : ∀ (reach : Reach) rest, ∃ found,
        done (reach.token .terminator [';'] :: rest) = some (found, rest) := fun _ _ => ⟨_, rfl⟩
    obtain ⟨stopper, more, same, stopping⟩ := exists_stopper lists divider closing next rest
    obtain ⟨value, read, good⟩ := first inner stopper more stopping
    obtain ⟨values, run, all⟩ :=
      further_reads others divides divider closing (fun _ => rfl) next rest
    refine ⟨value :: values, ?_, .cons good all⟩
    rw [separated, tokensFrom_append, List.append_assoc]
    have follows : tokensFrom next (lists.flatMap fun other =>
        .token .terminator [';'] :: .blank ' ' :: other) ++ behind.token .mark "\x7d".toList :: rest =
        stopper :: more := same
    rw [follows, bind_of_run (maybe_of_run read), Option.isSome_some, if_pos rfl, ← same,
      bind_of_run run]
    rfl

variable {type : Reader TypeExpr} {first name stop : Token} {expr : TypeExpr}
  {others rest : List Token} {limit : Nat} {meaning : TypeMeaning}

/-- A line ends without a tag. -/
theorem fieldTag_none (ends : stop.EndsLine) : fieldTag (stop :: rest) = some (none, stop :: rest) := by
  have ended : (stop.kind == .terminator || stop.isMark "\x7d") = true := by
    rcases ends with kind | closing
    · simp [kind]
    · simp [closing]
  have untagged : literal (stop :: rest) = none :=
    one_cons_of_false (by simpa using ends.isStop.kind.2) rest
  rw [fieldTag, bind_of_run (maybe_of_none untagged), bind_of_run (next_cons _ _), ended]
  rfl

/-- A single word is a list of one name. -/
theorem single_word (word : name.kind = .word) (other : first.isMark "," = false) :
    commaSeparated Reader.word (name :: first :: others) = some ([name], first :: others) := by
  rw [commaSeparated, separatedBy, bind_of_run (word_of_kind word _),
    bind_of_run (many_of_none (seqRight_of_none (mark_of_not other _)))]
  rfl

/-- A name in front of a type is that of a field. -/
theorem field_named (word : name.kind = .word) (other : first.isMark "," = false)
    (read : type (first :: others) = some (expr, stop :: rest)) (ends : stop.EndsLine) :
    field type (name :: first :: others) = some (.named [name.text] expr none, stop :: rest) := by
  rw [field]
  refine either_of_run ?_
  rw [bind_of_run (single_word word other), bind_of_run read, bind_of_run (fieldTag_none ends)]
  rfl

/-- Reads an embedded type. -/
def embeddedField (type : Reader TypeExpr) : Reader FieldExpr := do
  let star ← maybe (mark "*")
  let read ← namedType type
  return .embedded star.isSome read (← fieldTag)

/-- A word in front of no type is an embedded type. -/
theorem field_word (word : name.kind = .word) (other : first.isMark "," = false)
    (alone : type (first :: others) = none) :
    field type (name :: first :: others) = embeddedField type (name :: first :: others) := by
  rw [field]
  refine either_of_none ?_
  rw [bind_of_run (single_word word other), bind_of_none alone]

/-- Without a word in front, a field is embedded. -/
theorem field_mark (word : first.kind ≠ .word) :
    field type (first :: others) = embeddedField type (first :: others) := by
  rw [field]
  refine either_of_none ?_
  rw [commaSeparated, separatedBy, bind_of_none (bind_of_none (word_of_not word _))]

/-- An embedded type is read back, with the star in front of it. -/
theorem embeddedField_reads (reads : ReadsBelow limit type) (plain : meaning.IsPlain)
    (embeddable : meaning.isEmbeddable = true) (short : tokenCount meaning.lexemes ≤ limit) :
    IsReadAs Token.EndsLine (embeddedField type) meaning.lexemes fun expr =>
      fieldMeanings [expr] = [.mk none meaning none] := by
  intro reach stop rest ends
  cases named : meaning.isNamed with
  | true =>
    obtain ⟨first, others, made, begins⟩ := meaning.begins plain reach
    obtain ⟨expr, read, same⟩ := namedType_reads named plain reads short reach stop rest ends.isStop
    have bare : maybe (mark "*") (tokensFrom reach meaning.lexemes ++ stop :: rest) =
        some (none, tokensFrom reach meaning.lexemes ++ stop :: rest) := by
      have word := begins.word named
      rw [made]
      exact maybe_of_none (mark_of_not (Token.isMark_eq_false (by simp [word]) (by simp [word]) _) _)
    refine ⟨.embedded false expr none, ?_, by simp [fieldMeanings, same]⟩
    rw [embeddedField, bind_of_run bare, bind_of_run read, bind_of_run (fieldTag_none ends)]
    rfl
  | false =>
    cases meaning with
    | pointer elem =>
      rw [TypeMeaning.IsPlain] at plain
      rw [TypeMeaning.lexemes] at short ⊢
      let behind := reach.behindToken .mark "*".toList
      obtain ⟨expr, read, same⟩ := namedType_reads embeddable plain reads
        (by simp only [tokenCount_mark] at short; omega) behind stop rest ends.isStop
      have star : maybe (mark "*") (reach.token .mark "*".toList ::
          (tokensFrom behind elem.lexemes ++ stop :: rest)) =
            some (some (reach.token .mark "*".toList), tokensFrom behind elem.lexemes ++ stop :: rest) :=
        maybe_of_run (mark_of_isMark (isMark_mark reach "*" "*") _)
      refine ⟨.embedded true expr none, ?_, by simp [fieldMeanings, same]⟩
      rw [embeddedField]
      refine (bind_of_run star).trans ?_
      rw [bind_of_run read, bind_of_run (fieldTag_none ends)]
      rfl
    | _ => simp_all [TypeMeaning.isEmbeddable]

/-- The elements of a field. -/
def rowLexemes (label : Option String) (meaning : TypeMeaning) : List Lexeme :=
  labelLexemes label ++ meaning.lexemes

/-- A field is read back. -/
theorem field_reads {label : Option String} (reads : ReadsBelow limit (typeUpTo limit))
    (plain : meaning.IsPlain) (embeddable : label = none → meaning.isEmbeddable = true)
    (short : tokenCount meaning.lexemes < limit) :
    IsReadAs Token.EndsLine (field (typeUpTo limit)) (rowLexemes label meaning) fun expr =>
      fieldMeanings [expr] = [.mk label meaning none] := by
  intro reach stop rest ends
  cases label with
  | some text =>
    let between := reachBehind reach (labelLexemes (some text))
    obtain ⟨first, others, made, begins⟩ := meaning.begins plain between
    obtain ⟨expr, read, same⟩ := reads meaning plain short between stop rest ends.isStop
    rw [made, List.cons_append] at read
    refine ⟨.named [text] expr none, ?_, by simp [fieldMeanings, same]⟩
    rw [rowLexemes, tokensFrom_append, List.append_assoc, made]
    have word : (reach.token .word text.toList).kind = .word := rfl
    refine (field_named word (begins.isMark (by decide)) read ends).trans ?_
    rw [Reach.token, String.ofList_toList]
  | none =>
    obtain ⟨expr, read, same⟩ :=
      embeddedField_reads reads plain (embeddable rfl) (by omega) reach stop rest ends
    refine ⟨expr, ?_, same⟩
    rw [rowLexemes, labelLexemes, List.nil_append, ← read]
    cases named : meaning.isNamed with
    | true =>
      obtain ⟨first, next, more, split, word, alone, apart⟩ :=
        meaning.word_alone named plain reach ends.isStop rest
      have other : stop.isMark "," = false := by
        rcases ends with ended | closing
        · exact Token.isMark_eq_false (by simp [ended]) (by simp [ended]) _
        · exact Token.isMark_of_isMark closing (by decide)
      rw [split]
      exact field_word word (apart "," (by decide) other) (alone limit)
    | false =>
      obtain ⟨first, others, made, begins⟩ := meaning.begins plain reach
      rw [made, List.cons_append]
      exact field_mark (begins.kind named)

/-- A line of an interface without a method is read back as the type that it embeds. -/
theorem elem_reads_embedded (reads : ReadsBelow limit (typeUpTo limit)) (plain : meaning.IsPlain)
    (short : tokenCount meaning.lexemes < limit) :
    IsReadAs Token.EndsLine (elem (typeUpTo limit)) meaning.lexemes fun expr =>
      elemMeanings [expr] = [.embedded meaning] := by
  intro reach stop rest ends
  obtain ⟨types, read, expr, rfl, same⟩ :=
    union_reads (reads meaning plain short) reach stop rest ends.isStop
  refine ⟨.embedded expr, ?_, by simp [elemMeanings, same]⟩
  rw [elem]
  refine (either_of_none ?_).trans ((bind_of_run read).trans rfl)
  cases named : meaning.isNamed with
  | true =>
    -- A method would have its parameters right behind its name.
    obtain ⟨first, next, more, split, word, -, apart⟩ :=
      meaning.word_alone named plain reach ends.isStop rest
    have unopened : signature (typeUpTo limit) (next :: more) = none := bind_of_none (bind_of_none
      (mark_of_not (apart "(" (by decide) (ends.isStop.isMark (by decide))) more))
    rw [split, bind_of_run (word_of_kind word _), bind_of_none unopened]
  | false =>
    obtain ⟨first, others, made, begins⟩ := meaning.begins plain reach
    rw [made, List.cons_append, bind_of_none (word_of_not (begins.kind named) _)]

/-- A method is read back. -/
theorem elem_reads_method {name : String} {signature : SignatureMeaning}
    (reads : ReadsBelow limit (typeUpTo limit)) (plain : signature.IsPlain)
    (short : tokenCount signature.lexemes < limit) :
    IsReadAs Token.EndsLine (elem (typeUpTo limit)) (nameLexeme name :: signature.lexemes) fun expr =>
      elemMeanings [expr] = [.method name signature] := by
  intro reach stop rest ends
  let behind := reach.behindToken .word name.toList
  obtain ⟨expr, read, same⟩ := signature_reads reads plain short behind stop rest ends.isStop
  refine ⟨.method name expr, ?_, by simp [elemMeanings, same]⟩
  rw [elem]
  refine either_of_run ?_
  have word : (reach.token .word name.toList).kind = .word := rfl
  refine (bind_of_run (word_of_kind word _)).trans ?_
  refine (bind_of_run read).trans ?_
  rw [Reach.token, String.ofList_toList]
  rfl

variable {fields : List FieldMeaning} {elems : List ElemMeaning}

theorem fieldMeanings_cons (first : FieldExpr) (rest : List FieldExpr) :
    fieldMeanings (first :: rest) = fieldMeanings [first] ++ fieldMeanings rest := by
  cases first <;> simp [fieldMeanings]

theorem elemMeanings_cons (first : ElemExpr) (rest : List ElemExpr) :
    elemMeanings (first :: rest) = elemMeanings [first] ++ elemMeanings rest := by
  cases first <;> simp [elemMeanings]

/-- Fields that each stand for one stand for all of them. -/
theorem fieldMeanings_eq {exprs : List FieldExpr}
    (each : List.Forall₂ (fun expr meaning => fieldMeanings [expr] = [meaning]) exprs fields) :
    fieldMeanings exprs = fields := by
  induction each with
  | nil => rfl
  | cons first _ ih => rw [fieldMeanings_cons, first, ih, List.singleton_append]

theorem elemMeanings_eq {exprs : List ElemExpr}
    (each : List.Forall₂ (fun expr meaning => elemMeanings [expr] = [meaning]) exprs elems) :
    elemMeanings exprs = elems := by
  induction each with
  | nil => rfl
  | cons first _ ih => rw [elemMeanings_cons, first, ih, List.singleton_append]

/-- Fields are read back one by one. -/
theorem fields_read (reads : ReadsBelow limit (typeUpTo limit)) (plain : ArePlainFields fields)
    (short : ∀ list ∈ fieldLexemes fields, tokenCount list < limit) :
    List.Forall₂ (fun list meaning => IsReadAs Token.EndsLine (field (typeUpTo limit)) list
      fun expr => fieldMeanings [expr] = [meaning]) (fieldLexemes fields) fields := by
  induction fields with
  | nil => exact .nil
  | cons first rest ih =>
    obtain ⟨name, type, tag⟩ := first
    rw [ArePlainFields] at plain
    obtain ⟨-, embeddable, rfl, spelled, others⟩ := plain
    rw [fieldLexemes] at short ⊢
    obtain ⟨one, more⟩ := List.forall_mem_cons.mp short
    rw [tokenCount_append] at one
    exact .cons (field_reads reads spelled embeddable (by omega)) (ih others more)

/-- Lines of an interface are read back one by one. -/
theorem elems_read (reads : ReadsBelow limit (typeUpTo limit)) (plain : ArePlainElems elems)
    (short : ∀ list ∈ elemLexemes elems, tokenCount list < limit) :
    List.Forall₂ (fun list meaning => IsReadAs Token.EndsLine (elem (typeUpTo limit)) list
      fun expr => elemMeanings [expr] = [meaning]) (elemLexemes elems) elems := by
  induction elems with
  | nil => exact .nil
  | cons first rest ih =>
    cases first with
    | method name signature =>
      rw [ArePlainElems] at plain
      rw [elemLexemes] at short ⊢
      obtain ⟨one, more⟩ := List.forall_mem_cons.mp short
      rw [tokenCount_name] at one
      exact .cons (elem_reads_method reads plain.2.1 (by omega)) (ih plain.2.2 more)
    | embedded type =>
      rw [ArePlainElems] at plain
      rw [elemLexemes] at short ⊢
      obtain ⟨one, more⟩ := List.forall_mem_cons.mp short
      exact .cons (elem_reads_embedded reads plain.1 one) (ih plain.2 more)
    | union types =>
      rw [ArePlainElems] at plain
      exact plain.elim

/-- At a brace stands no field. -/
theorem field_none (reach : Reach) (rest : List Token) :
    field type (reach.token .mark "\x7d".toList :: rest) = none := by
  have word : (reach.token .mark "\x7d".toList).kind ≠ .word := by simp
  rw [field_mark word, embeddedField,
    bind_of_run (maybe_of_none (mark_of_not (isMark_other (by decide) reach) rest)),
    namedType_eq, typeName, bind_of_none (bind_of_none (bind_of_none (word_of_not word rest)))]

/-- At a brace stands no line of an interface. -/
theorem elem_none (reach : Reach) (rest : List Token) (depth : Nat) :
    elem (typeUpTo depth) (reach.token .mark "\x7d".toList :: rest) = none := by
  have word : (reach.token .mark "\x7d".toList).kind ≠ .word := by simp
  have stops : typeUpTo depth (reach.token .mark "\x7d".toList :: rest) = none :=
    typeUpTo_stop (isStop_mark (by decide) reach) depth rest
  have approximate : (mark "~" *> typeUpTo depth) (reach.token .mark "\x7d".toList :: rest) = none :=
    seqRight_of_none (mark_of_not (isMark_other (by decide) reach) rest)
  have terms : term (typeUpTo depth) (reach.token .mark "\x7d".toList :: rest) = none := by
    rw [term, either_of_none stops, bind_run, withTaken_run, approximate]
    rfl
  rw [elem]
  refine (either_of_none (bind_of_none (word_of_not word rest))).trans ?_
  exact bind_of_none (bind_of_none terms)

end Rows

section Channels

variable {meaning elem : TypeMeaning} {depth : Nat} {stop : Token}

/-- No comment stands in front of a type. -/
theorem strayComment_none {first : Token} (others : List Token) (plain : first.comments = []) :
    strayComment (first :: others) = some (none, first :: others) := by
  rw [strayComment, bind_of_run (next_cons _ _), plain]
  rfl

/-- A type behind a mark is read back without a comment in front of it. -/
theorem stray_reads {type : Reader TypeExpr} (plain : meaning.IsPlain)
    (reads : ReadsType type meaning.lexemes meaning) {reach : Reach} (bare : reach.comments = [])
    (stops : stop.IsStop) (rest : List Token) :
    let tokens := tokensFrom reach meaning.lexemes ++ stop :: rest
    strayComment tokens = some (none, tokens) ∧
      ∃ expr, type tokens = some (expr, stop :: rest) ∧ expr.meaning = meaning := by
  obtain ⟨first, others, made, begins⟩ := meaning.begins plain reach
  refine ⟨?_, reads reach stop rest stops⟩
  rw [made, List.cons_append]
  exact strayComment_none _ (begins.comments.trans bare)

/-- What is behind an arrow in front of a type is read as a channel to receive from, or as no type. -/
def ArrowsBelow (limit : Nat) : Prop :=
  ∀ meaning : TypeMeaning, meaning.IsPlain → tokenCount meaning.lexemes < limit →
    ∀ (reach behind : Reach) (stop : Token) (rest : List Token), stop.IsStop →
      typeUpTo limit (reach.token .mark "<-".toList :: (tokensFrom behind meaning.lexemes ++
        stop :: rest)) = none ∨ ∃ expr : TypeExpr,
          typeUpTo limit (reach.token .mark "<-".toList :: (tokensFrom behind meaning.lexemes ++
            stop :: rest)) = some (.chan .receive expr, stop :: rest) ∧
          channelMeaning expr expr.meaning = meaning

/-- A type that begins with no arrow is the element of a channel of both directions as it is. -/
theorem channelMeaning_of_not {expr : TypeExpr} (other : meaning.isReceive = false) :
    channelMeaning expr meaning = .chan .both meaning := by
  unfold channelMeaning
  split
  · cases other
  · rfl

/-- The element of a channel of both directions is read back, in parentheses where it needs them. -/
theorem enclosed_reads (reads : ∀ limit ≤ depth, ReadsBelow limit (typeUpTo limit))
    (plain : elem.IsPlain) (short : tokenCount (enclosedLexemes elem.isReceive elem.lexemes) < depth) :
    IsReadAs Token.IsStop (typeUpTo depth) (enclosedLexemes elem.isReceive elem.lexemes) fun expr =>
      expr.meaning = elem ∧ channelMeaning expr expr.meaning = .chan .both elem := by
  intro reach stop rest stops
  cases receives : elem.isReceive with
  | true =>
    rw [receives, enclosedLexemes, if_pos rfl] at short
    rw [enclosedLexemes, if_pos rfl]
    obtain ⟨depth, rfl⟩ : ∃ less, depth = less + 1 := ⟨depth - 1, by omega⟩
    simp only [tokenCount_append, tokenCount_mark] at short
    let behind := reach.behindToken .mark "(".toList
    let last := reachBehind behind elem.lexemes
    have uncommented : behind.comments = [] := rfl
    have closes : (last.token .mark ")".toList).IsStop := isStop_mark (by decide) last
    obtain ⟨bare, expr, read, same⟩ := stray_reads plain
      (reads depth (by omega) elem plain (by omega)) uncommented closes (stop :: rest)
    have whole : tokensFrom reach (markLexeme "(" :: elem.lexemes ++ [markLexeme ")"]) ++ stop :: rest =
        reach.token .mark "(".toList :: (tokensFrom behind elem.lexemes ++
          last.token .mark ")".toList :: stop :: rest) := by
      rw [tokensFrom_append, List.append_assoc]
      rfl
    refine ⟨.paren expr, ?_, by simpa [TypeExpr.meaning] using same, ?_⟩
    · rw [whole, typeUpTo_paren, bind_of_run bare, bind_of_run read]
      rfl
    · simp only [TypeExpr.meaning, same]
      rfl
  | false =>
    rw [receives, enclosedLexemes, if_neg Bool.false_ne_true] at short
    rw [enclosedLexemes, if_neg Bool.false_ne_true]
    obtain ⟨expr, read, same⟩ := reads depth le_rfl elem plain short reach stop rest stops
    exact ⟨expr, read, same, by rw [same, channelMeaning_of_not receives]⟩

/-- What an arrow in front of a type makes of it, if that is so for the types inside it. -/
theorem arrows_succ (reads : ∀ limit ≤ depth, ReadsBelow limit (typeUpTo limit))
    (arrows : ArrowsBelow depth) : ArrowsBelow (depth + 1) := by
  intro meaning plain short reach behind stop rest stops
  obtain ⟨first, others, made, begins⟩ := meaning.begins plain behind
  cases channel : first.isMark "chan" with
  | false =>
    left
    rw [made, List.cons_append, typeUpTo_arrow, bind_of_none (mark_of_not channel _)]
  | true =>
    rcases begins.channel channel with ⟨elem, rfl | rfl⟩
    · rw [TypeMeaning.IsPlain] at plain
      rw [TypeMeaning.lexemes] at short ⊢
      simp only [tokenCount_keyword, tokenCount_blank] at short
      let between := (tokenAt (behind.behindToken .keyword "chan".toList) (.blank ' ')).2
      obtain ⟨expr, read, -, same⟩ :=
        enclosed_reads reads plain (by omega) between stop rest stops
      refine .inr ⟨expr, ?_, same⟩
      rw [typeUpTo_arrow]
      refine (bind_of_run (mark_of_isMark (isMark_keyword behind "chan" "chan") _)).trans ?_
      exact (bind_of_run read).trans rfl
    · rw [TypeMeaning.IsPlain] at plain
      rw [TypeMeaning.lexemes] at short ⊢
      simp only [tokenCount_mark, tokenCount_keyword, tokenCount_blank] at short
      let arrow := behind.behindToken .keyword "chan".toList
      let between := (tokenAt (arrow.behindToken .mark "<-".toList) (.blank ' ')).2
      have opened : ∀ more, mark "chan" (behind.token .keyword "chan".toList :: more) =
          some (behind.token .keyword "chan".toList, more) := fun _ => rfl
      rcases arrows elem plain (by omega) arrow between stop rest stops with
        none | ⟨expr, read, same⟩
      · left
        rw [typeUpTo_arrow]
        exact (bind_of_run (opened _)).trans (bind_of_none none)
      · refine .inr ⟨.chan .receive expr, ?_, ?_⟩
        · rw [typeUpTo_arrow]
          exact (bind_of_run (opened _)).trans ((bind_of_run read).trans rfl)
        · simp only [TypeExpr.meaning, channelMeaning, same]

/-- A channel type is read back, if the types inside it are. -/
theorem channel_reads {dir : ChanDir} (reads : ∀ limit ≤ depth, ReadsBelow limit (typeUpTo limit))
    (arrows : ArrowsBelow depth) (plain : elem.IsPlain)
    (short : tokenCount (TypeMeaning.chan dir elem).lexemes ≤ depth) :
    ReadsType (typeUpTo (depth + 1)) (TypeMeaning.chan dir elem).lexemes (.chan dir elem) := by
  intro reach stop rest stops
  cases dir with
  | both =>
    rw [TypeMeaning.lexemes] at short ⊢
    simp only [tokenCount_keyword, tokenCount_blank] at short
    let between := (tokenAt (reach.behindToken .keyword "chan".toList) (.blank ' ')).2
    obtain ⟨expr, read, -, same⟩ := enclosed_reads reads plain (by omega) between stop rest stops
    refine ⟨.chan .both expr, ?_, by simpa only [TypeExpr.meaning] using same⟩
    -- In front of the element stands no arrow.
    have plainFirst : ∃ first others, tokensFrom between (enclosedLexemes elem.isReceive elem.lexemes) =
        first :: others ∧ first.isMark "<-" = false := by
      cases receives : elem.isReceive with
      | true =>
        have other : (between.token .mark "(".toList).isMark "<-" = false := isMark_other (by decide) _
        exact ⟨_, _, rfl, other⟩
      | false =>
        obtain ⟨first, others, made, begins⟩ := elem.begins plain between
        exact ⟨first, others, made, begins.receives.trans receives⟩
    obtain ⟨first, others, made, apart⟩ := plainFirst
    rw [made, List.cons_append] at read
    have whole : tokensFrom (reach.behindToken .keyword "chan".toList)
        (.blank ' ' :: enclosedLexemes elem.isReceive elem.lexemes) ++ stop :: rest =
          first :: (others ++ stop :: rest) := by
      rw [tokensFrom_space, made, List.cons_append]
    refine (typeUpTo_chan reach).trans ((congrArg (channel (typeUpTo depth)) whole).trans ?_)
    refine (either_of_none (bind_of_none (ahead_of_not (by simp [apart]) _))).trans ?_
    refine (either_of_none (bind_of_none (mark_of_not apart _))).trans ?_
    exact (bind_of_run read).trans rfl
  | send =>
    rw [TypeMeaning.lexemes] at short ⊢
    simp only [tokenCount_mark, tokenCount_keyword, tokenCount_blank] at short
    let arrow := reach.behindToken .keyword "chan".toList
    let between := (tokenAt (arrow.behindToken .mark "<-".toList) (.blank ' ')).2
    have seen : ahead ["<-"] (arrow.token .mark "<-".toList ::
        (tokensFrom between elem.lexemes ++ stop :: rest)) = some ((), arrow.token .mark "<-".toList ::
          (tokensFrom between elem.lexemes ++ stop :: rest)) := ahead_of_isMark rfl _
    -- The arrow is read as that of the element if this gives a type.
    rcases arrows elem plain (by omega) arrow between stop rest stops with none | ⟨expr, read, same⟩
    · obtain ⟨expr, read, rfl⟩ := reads depth le_rfl elem plain (by omega) between stop rest stops
      refine ⟨.chan .send expr, ?_, by simp only [TypeExpr.meaning]⟩
      refine (typeUpTo_chan reach).trans ?_
      refine (either_of_none ((bind_of_run seen).trans (bind_of_none none))).trans ?_
      refine either_of_run ((bind_of_run (mark_of_isMark (isMark_mark arrow "<-" "<-") _)).trans ?_)
      exact (bind_of_run read).trans rfl
    · refine ⟨.chan .both (.chan .receive expr), ?_, by
        simp only [TypeExpr.meaning, channelMeaning, same]⟩
      refine (typeUpTo_chan reach).trans ?_
      exact either_of_run ((bind_of_run seen).trans ((bind_of_run read).trans rfl))
  | receive =>
    rw [TypeMeaning.lexemes] at short ⊢
    simp only [tokenCount_mark, tokenCount_keyword, tokenCount_blank] at short
    let word := reach.behindToken .mark "<-".toList
    let between := (tokenAt (word.behindToken .keyword "chan".toList) (.blank ' ')).2
    obtain ⟨expr, read, rfl⟩ := reads depth le_rfl elem plain (by omega) between stop rest stops
    refine ⟨.chan .receive expr, ?_, by simp only [TypeExpr.meaning]⟩
    refine (typeUpTo_arrow reach).trans ?_
    refine (bind_of_run (mark_of_isMark (isMark_keyword word "chan" "chan") _)).trans ?_
    exact (bind_of_run read).trans rfl

end Channels

section Whole

variable {depth : Nat} {meaning : TypeMeaning}

/-- A type is read back one level deeper than the types inside it. -/
theorem reads_succ (reads : ∀ limit ≤ depth, ReadsBelow limit (typeUpTo limit))
    (arrows : ArrowsBelow depth) : ReadsBelow (depth + 1) (typeUpTo (depth + 1)) := by
  intro meaning plain short
  have inner := reads depth le_rfl
  have bound : tokenCount meaning.lexemes ≤ depth := by omega
  cases named : meaning.isNamed with
  | true =>
    intro reach stop rest stops
    obtain ⟨first, others, made, begins⟩ := meaning.begins plain reach
    obtain ⟨expr, read, same⟩ := namedType_reads named plain inner bound reach stop rest stops
    refine ⟨expr, ?_, same⟩
    rw [made, List.cons_append] at read ⊢
    rwa [typeUpTo_word (begins.word named)]
  | false =>
    cases meaning with
    | name | qualified | generic => cases named
    | comment | approximate => exact plain.elim
    | chan dir elem => exact channel_reads reads arrows plain bound
    | pointer elem =>
      intro reach stop rest stops
      rw [TypeMeaning.IsPlain] at plain
      rw [TypeMeaning.lexemes] at bound ⊢
      simp only [tokenCount_mark] at bound
      have uncommented : (reach.behindToken .mark "*".toList).comments = [] := rfl
      obtain ⟨bare, expr, read, rfl⟩ :=
        stray_reads plain (inner elem plain (by omega)) uncommented stops rest
      refine ⟨.pointer expr, (typeUpTo_pointer reach).trans ?_, by simp only [TypeExpr.meaning]⟩
      exact (bind_of_run bare).trans ((bind_of_run read).trans rfl)
    | slice elem =>
      intro reach stop rest stops
      rw [TypeMeaning.IsPlain] at plain
      rw [TypeMeaning.lexemes] at bound ⊢
      simp only [tokenCount_mark] at bound
      obtain ⟨expr, read, rfl⟩ := inner elem plain (by omega)
        ((reach.behindToken .mark "[".toList).behindToken .mark "]".toList) stop rest stops
      refine ⟨.slice expr, (typeUpTo_slice reach _).trans ?_, by simp only [TypeExpr.meaning]⟩
      rw [map_run]
      exact congrArg (Option.map _) read
    | array length elem =>
      intro reach stop rest stops
      rw [TypeMeaning.IsPlain] at plain
      obtain ⟨isLength, spelled⟩ := plain
      rw [TypeMeaning.lexemes] at bound ⊢
      simp only [tokenCount_append, tokenCount_mark] at bound
      let inside := reach.behindToken .mark "[".toList
      let behind := reachBehind inside (lengthLexemes length)
      obtain ⟨expr, read, same⟩ :=
        inner elem spelled (by omega) (behind.behindToken .mark "]".toList) stop rest stops
      obtain ⟨first, others, made, other⟩ := isLength.begins inside
      have taken := withTaken_of_run (isLength.reads inside behind
        (tokensFrom (behind.behindToken .mark "]".toList) elem.lexemes ++ stop :: rest))
      have whole : tokensFrom reach (markLexeme "[" :: lengthLexemes length ++ markLexeme "]" ::
          elem.lexemes) ++ stop :: rest = reach.token .mark "[".toList ::
            (tokensFrom inside (lengthLexemes length) ++ behind.token .mark "]".toList ::
              (tokensFrom (behind.behindToken .mark "]".toList) elem.lexemes ++ stop :: rest)) := by
        rw [tokensFrom_append, List.append_assoc]
        rfl
      have source := isLength.source inside
      rw [made] at taken source whole
      refine ⟨.array length expr, ?_, by simp only [TypeExpr.meaning, same]⟩
      rw [whole, List.cons_append, typeUpTo_array reach other]
      refine (bind_of_run taken).trans ?_
      refine (seqRight_of_run (mark_of_isMark (isMark_mark behind "]" "]") _)).trans ?_
      rw [map_run, read, source]
      rfl
    | map key value =>
      intro reach stop rest stops
      rw [TypeMeaning.IsPlain] at plain
      rw [TypeMeaning.lexemes] at bound ⊢
      simp only [tokenCount_append, tokenCount_mark, tokenCount_keyword] at bound
      let front := (reach.behindToken .keyword "map".toList)
      let inside := front.behindToken .mark "[".toList
      let behind := reachBehind inside key.lexemes
      obtain ⟨value', second, rfl⟩ :=
        inner value plain.2 (by omega) (behind.behindToken .mark "]".toList) stop rest stops
      obtain ⟨key', first, rfl⟩ := inner key plain.1 (by omega) inside
        (behind.token .mark "]".toList) (tokensFrom (behind.behindToken .mark "]".toList)
          value'.meaning.lexemes ++ stop :: rest) (isStop_mark (by decide) behind)
      have whole : tokensFrom reach (keywordLexeme "map" :: markLexeme "[" :: key'.meaning.lexemes ++
          markLexeme "]" :: value'.meaning.lexemes) ++ stop :: rest =
            reach.token .keyword "map".toList :: front.token .mark "[".toList ::
              (tokensFrom inside key'.meaning.lexemes ++ behind.token .mark "]".toList ::
                (tokensFrom (behind.behindToken .mark "]".toList) value'.meaning.lexemes ++
                  stop :: rest)) := by
        rw [tokensFrom_append, List.append_assoc]
        rfl
      refine ⟨.map key' value', ?_, by simp only [TypeExpr.meaning]⟩
      rw [whole, typeUpTo_map]
      refine (bind_of_run (mark_of_isMark (isMark_mark front "[" "[") _)).trans ?_
      refine (bind_of_run first).trans ?_
      refine (bind_of_run (mark_of_isMark (isMark_mark behind "]" "]") _)).trans ?_
      exact (bind_of_run second).trans rfl
    | func signature =>
      intro reach stop rest stops
      rw [TypeMeaning.IsPlain] at plain
      rw [TypeMeaning.lexemes] at bound ⊢
      simp only [tokenCount_keyword] at bound
      obtain ⟨expr, read, rfl⟩ := signature_reads inner plain (by omega)
        (reach.behindToken .keyword "func".toList) stop rest stops
      refine ⟨.func expr, (typeUpTo_func reach).trans ?_, by simp only [TypeExpr.meaning]⟩
      rw [map_run]
      exact congrArg (Option.map _) read
    | struct fields =>
      intro reach stop rest stops
      rw [TypeMeaning.IsPlain] at plain
      rw [TypeMeaning.lexemes] at bound ⊢
      simp only [tokenCount_append, tokenCount_mark, tokenCount_keyword] at bound
      obtain ⟨exprs, read, all⟩ := lines_read (fields_read inner plain fun list member => by
          have one := tokenCount_le_separated (.token .terminator [';']) member
          omega)
        field_none (reach.behindToken .keyword "struct".toList) (stop :: rest)
      refine ⟨.struct exprs, (typeUpTo_struct reach).trans ?_, by
        simp only [TypeExpr.meaning, fieldMeanings_eq all]⟩
      rw [map_run]
      exact congrArg (Option.map _) read
    | interface elems =>
      intro reach stop rest stops
      rw [TypeMeaning.IsPlain] at plain
      rw [TypeMeaning.lexemes] at bound ⊢
      simp only [tokenCount_append, tokenCount_mark, tokenCount_keyword] at bound
      obtain ⟨exprs, read, all⟩ := lines_read (elems_read inner plain fun list member => by
          have one := tokenCount_le_separated (.token .terminator [';']) member
          omega)
        (fun reach rest => elem_none reach rest depth)
        (reach.behindToken .keyword "interface".toList) (stop :: rest)
      refine ⟨.interface exprs, (typeUpTo_interface reach).trans ?_, by
        simp only [TypeExpr.meaning, elemMeanings_eq all]⟩
      rw [map_run]
      exact congrArg (Option.map _) read

/-- A type that is spelled by its meaning is read back as a type of this meaning. -/
theorem TypeMeaning.reads_back (limit : Nat) :
    ReadsBelow limit (typeUpTo limit) ∧ ArrowsBelow limit := by
  induction limit using Nat.strong_induction_on with
  | _ limit ih =>
    cases limit with
    | zero => exact ⟨fun _ _ short => absurd short (Nat.not_lt_zero _),
        fun _ _ short => absurd short (Nat.not_lt_zero _)⟩
    | succ depth =>
      have reads : ∀ limit ≤ depth, ReadsBelow limit (typeUpTo limit) :=
        fun limit bound => (ih limit (by omega)).1
      have arrows := (ih depth (by omega)).2
      exact ⟨reads_succ reads arrows, arrows_succ reads arrows⟩

/-- The type that a text is, if it is one and nothing else. -/
def typeIn (text : List Char) : Option TypeExpr :=
  match tokens text with
  | (tokens, true) =>
    match Reader.type tokens with
    | some (expr, [_]) => some expr
    | _ => none
  | _ => none

/-- The text that a type is spelled with by its meaning is a type of this meaning. -/
theorem TypeMeaning.typeIn_chars (plain : meaning.IsPlain) :
    ∃ expr, typeIn (lexemeChars meaning.lexemes) = some expr ∧ expr.meaning = meaning := by
  have lexes : Lexes (lexemeChars meaning.lexemes) meaning.lexemes [] := by
    have divided := meaning.divides plain [] (by simp [Stops])
    rwa [Divides, List.append_nil] at divided
  have unmarked : ∀ c, (lexemeChars meaning.lexemes).head? = some c → c.toNat ≠ 0xFEFF := by
    rintro c begins code
    have other : (lexemeChars meaning.lexemes ++ []).head? ≠ some '\uFEFF' :=
      TypeMeaning.head_ne plain (by decide) []
    rw [List.append_nil, begins] at other
    exact other (congrArg some (Char.toNat_inj.mp code))
  have whole : tokens (lexemeChars meaning.lexemes) = (tokensFrom {} meaning.lexemes ++
      [(reachBehind {} meaning.lexemes).token .eof []], true) := by
    have all : Go.lexemes (lexemeChars meaning.lexemes) = (meaning.lexemes, true) := by
      rw [(FileLexes.plain unmarked lexes).lexemes_eq]
      exact Prod.ext (List.append_nil _) rfl
    rw [tokens, all, ← placeTokens_eq]
  -- No type is deeper inside another than there are tokens.
  have enough : tokenCount meaning.lexemes < (tokensFrom {} meaning.lexemes ++
      [(reachBehind {} meaning.lexemes).token .eof []]).length := by
    have few := tokenCount_le_length {} meaning.lexemes
    rw [List.length_append, List.length_singleton]
    omega
  obtain ⟨expr, read, same⟩ := (TypeMeaning.reads_back _).1 meaning plain enough {}
    ((reachBehind {} meaning.lexemes).token .eof []) [] (.inl rfl)
  have found : Reader.type (tokensFrom {} meaning.lexemes ++
      [(reachBehind {} meaning.lexemes).token .eof []]) =
        some (expr, [(reachBehind {} meaning.lexemes).token .eof []]) := read
  exact ⟨expr, by rw [typeIn, whole]; simp only [found], same⟩

end Whole

end Scaffold.Go
