import Scaffold.Proofs.Go.NamedTypes

/-! Parameters and results are read back. -/

namespace Scaffold.Go

open Reading Reader

section Entries

namespace Reader.ParamEntry

/-- What an entry of a parameter list means by itself. -/
def meaning : ParamEntry → ParamMeaning
  | .bare type _ => .mk none type.meaning false
  | .named name type _ => .mk (some name) type.meaning false
  | .rest name type _ => .mk name type.meaning true

/-- Whether an entry has a name in front of its type. -/
def isNamed : ParamEntry → Bool
  | .named _ _ _ => true
  | _ => false

end Reader.ParamEntry

theorem sharedNames_eq_none {entries : List ParamEntry}
    (none : ∀ entry ∈ entries, entry.isNamed = false) : sharedNames entries = Option.none := by
  induction entries with
  | nil => rfl
  | cons first rest ih =>
    obtain ⟨unnamed, others⟩ := List.forall_mem_cons.mp none
    cases first with
    | bare type start =>
      cases type with
      | name text offset => rw [sharedNames, ih others, Option.map_none]
      | _ => rfl
    | named name type start => cases unnamed
    | rest name type start => rfl

/-- Entries that all have names, or none, stand for a parameter each. -/
theorem groupParams_meaning {entries : List ParamEntry} {limit : Nat}
    (enough : entries.length ≤ limit)
    (labelled : AreLabelled (entries.map ParamEntry.meaning)) :
    paramMeanings (groupParams limit entries) = entries.map ParamEntry.meaning := by
  induction entries generalizing limit with
  | nil => cases limit <;> rfl
  | cons first rest ih =>
    obtain ⟨limit, rfl⟩ : ∃ less, limit = less + 1 := ⟨limit - 1, by simp at enough; omega⟩
    have others : AreLabelled (rest.map ParamEntry.meaning) := by
      rw [List.map_cons] at labelled
      exact labelled.imp (fun all => (List.forall_mem_cons.mp all).2)
        fun none => (List.forall_mem_cons.mp none).2
    have fewer : rest.length ≤ limit := by simpa using enough
    have same := ih fewer others
    cases first with
    | named name type start =>
      rw [groupParams, paramMeanings, same]
      rfl
    | rest name type start =>
      rw [groupParams, paramMeanings, same]
      cases name <;> rfl
    | bare type start =>
      -- Without a name it stands alone, as none of the entries behind it has a name.
      have none : ∀ entry ∈ ParamEntry.bare type start :: rest, entry.isNamed = false := by
        rcases labelled with all | none
        · exact absurd (all _ List.mem_cons_self) (by simp [ParamEntry.meaning, ParamMeaning.name])
        · intro entry member
          have unnamed := none _ (List.mem_map_of_mem member)
          cases entry <;> first | rfl | cases unnamed
      rw [groupParams, sharedNames_eq_none none]
      simp only
      rw [paramMeanings, same]
      rfl

/-- What can stand behind an entry of a parameter list. -/
def Token.EndsEntry (token : Token) : Prop :=
  token.isMark "," = true ∨ token.isMark ")" = true

theorem Token.EndsEntry.isStop {token : Token} (ends : token.EndsEntry) : token.IsStop := by
  rcases ends with comma | closing
  · exact .inr (.inr ⟨",", by decide, comma⟩)
  · exact .inr (.inr ⟨")", by decide, closing⟩)

variable {type : Reader TypeExpr} {first name stop : Token} {expr : TypeExpr}
  {others rest : List Token}

/-- A type that is spread, with or without a name, is read as such. -/
theorem paramEntry_spread (named : Option Token) (front : List Token) {dots : Token}
    (begins : maybe word (front ++ dots :: first :: others) = some (named, dots :: first :: others))
    (spread : dots.isMark "..." = true) (read : type (first :: others) = some (expr, rest)) :
    paramEntry type (front ++ dots :: first :: others) =
      some (.rest (named.map Token.text) expr first.start, rest) := by
  obtain ⟨head, tail, whole⟩ : ∃ head tail, front ++ dots :: first :: others = head :: tail := by
    cases front <;> exact ⟨_, _, rfl⟩
  have seen : next (front ++ dots :: first :: others) =
      some (head, front ++ dots :: first :: others) := by rw [whole]; rfl
  rw [paramEntry, bind_of_run seen]
  refine either_of_run ?_
  rw [bind_of_run begins, bind_of_run (mark_of_isMark spread _), bind_of_run (next_cons _ _),
    bind_of_run read]
  rfl

/-- A name in front of a whole type names a parameter. -/
theorem paramEntry_named (word : name.kind = .word) (plain : first.isMark "..." = false)
    (read : type (first :: others) = some (expr, stop :: rest)) (ends : stop.EndsEntry) :
    paramEntry type (name :: first :: others) =
      some (.named name.text expr first.start, stop :: rest) := by
  rw [paramEntry, bind_of_run (next_cons _ _)]
  refine (either_of_none ?_).trans (either_of_run ?_)
  · rw [bind_of_run (maybe_of_run (word_of_kind word _)), bind_of_none (mark_of_not plain _)]
  · have stopped : [",", ")"].any stop.isMark = true := by
      rcases ends with comma | closing
      · simp [comma]
      · simp [closing]
    rw [bind_of_run (word_of_kind word _), bind_of_run (next_cons _ _), bind_of_run read,
      bind_of_run (ahead_of_isMark stopped _)]
    rfl

/-- A type that begins with no word stands for itself. -/
theorem paramEntry_mark (word : first.kind ≠ .word) (plain : first.isMark "..." = false)
    (read : type (first :: others) = some (expr, rest)) :
    paramEntry type (first :: others) = some (.bare expr first.start, rest) := by
  rw [paramEntry, bind_of_run (next_cons _ _)]
  refine (either_of_none ?_).trans ((either_of_none ?_).trans ?_)
  · rw [bind_of_run (maybe_of_none (word_of_not word _)), bind_of_none (mark_of_not plain _)]
  · rw [bind_of_none (word_of_not word _)]
  · rw [bind_of_run read]
    rfl

/-- So does a word behind which no type begins. -/
theorem paramEntry_word {next : Token} (word : first.kind = .word) (plain : next.isMark "..." = false)
    (alone : type (next :: others) = none)
    (read : type (first :: next :: others) = some (expr, rest)) :
    paramEntry type (first :: next :: others) = some (.bare expr first.start, rest) := by
  rw [paramEntry, bind_of_run (next_cons _ _)]
  refine (either_of_none ?_).trans ((either_of_none ?_).trans ?_)
  · rw [bind_of_run (maybe_of_run (word_of_kind word _)), bind_of_none (mark_of_not plain _)]
  · rw [bind_of_run (word_of_kind word _), bind_of_run (next_cons _ _), bind_of_none alone]
  · rw [bind_of_run read]
    rfl

/-- Where no type, no name and no dots stand, there is no entry. -/
theorem paramEntry_none (word : first.kind ≠ .word) (plain : first.isMark "..." = false)
    (fails : type (first :: others) = none) : paramEntry type (first :: others) = none := by
  rw [paramEntry, bind_of_run (next_cons _ _)]
  refine (either_of_none ?_).trans ((either_of_none ?_).trans ?_)
  · rw [bind_of_run (maybe_of_none (word_of_not word _)), bind_of_none (mark_of_not plain _)]
  · rw [bind_of_none (word_of_not word _)]
  · rw [bind_of_none fails]

variable {limit : Nat} {label : Option String} {meaning : TypeMeaning} {variadic : Bool}

/-- The elements of a parameter with a type. -/
def entryLexemes (label : Option String) (variadic : Bool) (meaning : TypeMeaning) : List Lexeme :=
  labelLexemes label ++ (if variadic then [markLexeme "..."] else []) ++ meaning.lexemes

/-- A parameter is read back as an entry of its own. -/
theorem paramEntry_reads (reads : ReadsBelow limit (typeUpTo limit)) (plain : meaning.IsPlain)
    (short : tokenCount meaning.lexemes < limit) :
    IsReadAs Token.EndsEntry (paramEntry (typeUpTo limit)) (entryLexemes label variadic meaning)
      (·.meaning = .mk label meaning variadic) := by
  intro reach stop rest ends
  -- The tokens of the type stand behind the name and the dots.
  have typed : ∀ reach, ∃ first others expr, tokensFrom reach meaning.lexemes ++ stop :: rest =
      first :: others ∧ meaning.BeginsWith reach first ∧ expr.meaning = meaning ∧
      typeUpTo limit (first :: others) = some (expr, stop :: rest) := by
    intro reach
    obtain ⟨first, others, made, begins⟩ := meaning.begins plain reach
    obtain ⟨expr, read, same⟩ := reads meaning plain short reach stop rest ends.isStop
    rw [made, List.cons_append] at read
    exact ⟨first, _, expr, by rw [made, List.cons_append], begins, same, read⟩
  cases variadic with
  | true =>
    obtain ⟨first, others, expr, made, -, rfl, read⟩ :=
      typed (reachBehind reach (labelLexemes label ++ [markLexeme "..."]))
    rw [entryLexemes, if_pos rfl, tokensFrom_append, List.append_assoc, made]
    cases label with
    | none => exact ⟨_, paramEntry_spread none [] rfl rfl read, rfl⟩
    | some text =>
      refine ⟨_, paramEntry_spread _ [reach.token .word text.toList] rfl rfl read, ?_⟩
      simp [ParamEntry.meaning, Reach.token, String.ofList_toList]
  | false =>
    rw [entryLexemes, if_neg Bool.false_ne_true, List.append_nil]
    cases label with
    | some text =>
      obtain ⟨first, others, expr, made, begins, rfl, read⟩ :=
        typed (reachBehind reach (labelLexemes (some text)))
      rw [tokensFrom_append, List.append_assoc, made]
      have word : (reach.token .word text.toList).kind = .word := rfl
      refine ⟨_, paramEntry_named word (begins.isMark (by decide)) read ends, ?_⟩
      simp [ParamEntry.meaning, Reach.token, String.ofList_toList]
    | none =>
      obtain ⟨first, others, expr, made, begins, same, read⟩ := typed reach
      rw [labelLexemes, List.nil_append, made]
      refine ⟨.bare expr first.start, ?_, by simp only [ParamEntry.meaning, same]⟩
      cases named : meaning.isNamed with
      | false =>
        exact paramEntry_mark (begins.kind named) (begins.isMark (by decide)) read
      | true =>
        obtain ⟨head, next, more, split, word, alone, apart⟩ :=
          meaning.word_alone named plain reach ends.isStop rest
        rw [split] at made
        obtain ⟨rfl, rfl⟩ := List.cons.inj made
        exact paramEntry_word word (apart "..." (by decide) (ends.isStop.isMark (by decide)))
          (alone limit) read

variable {params : List ParamMeaning}

theorem paramLexemes_eq_map (params : List ParamMeaning) : paramLexemes params =
    params.map fun param => entryLexemes param.name param.variadic param.type := by
  induction params with
  | nil => rfl
  | cons first rest ih =>
    obtain ⟨name, type, variadic⟩ := first
    rw [paramLexemes, ih, List.map_cons]
    rfl

theorem arePlainParams_iff : ArePlainParams params ↔ ∀ param ∈ params,
    (∀ text ∈ param.name, isName text.toList = true) ∧ param.type.IsPlain := by
  induction params with
  | nil => simp [ArePlainParams]
  | cons first rest ih =>
    obtain ⟨name, type, variadic⟩ := first
    rw [ArePlainParams, ih, List.forall_mem_cons, and_assoc]
    rfl

/-- Parameters between parentheses are read back in front of anything. -/
theorem paramList_reads (reads : ReadsBelow limit (typeUpTo limit)) (plain : ArePlainParams params)
    (labelled : AreLabelled params)
    (short : tokenCount (separated (markLexeme ",") (paramLexemes params)) < limit)
    (reach behind : Reach) (rest : List Token) : ∃ exprs,
    paramList (typeUpTo limit) (reach.token .mark "(".toList ::
      (tokensFrom (reach.behindToken .mark "(".toList) (separated (markLexeme ",") (paramLexemes params)) ++
        behind.token .mark ")".toList :: rest)) = some (exprs, rest) ∧
      paramMeanings exprs = params := by
  have opened : ∀ more, mark "(" (reach.token .mark "(".toList :: more) =
    some (reach.token .mark "(".toList, more) := fun _ => rfl
  rw [paramList, bind_of_run (opened _)]
  by_cases filled : paramLexemes params = []
  · have none : commaSeparated (paramEntry (typeUpTo limit))
        (behind.token .mark ")".toList :: rest) = none :=
      bind_of_none (paramEntry_none (by simp) (isMark_other (by decide) behind)
        (typeUpTo_stop (isStop_mark (by decide) behind) limit rest))
    rw [paramLexemes_eq_map, List.map_eq_nil_iff] at filled
    subst filled
    refine ⟨[], ?_, rfl⟩
    rw [paramLexemes, separated, tokensFrom_nil, List.nil_append, bind_of_run (maybe_of_none none)]
    rfl
  · have each : List.Forall₂ (fun list param => IsReadAs Token.EndsEntry (paramEntry (typeUpTo limit))
        list (·.meaning = param)) (paramLexemes params) params := by
      have bound : ∀ list ∈ paramLexemes params,
          tokenCount list ≤ tokenCount (separated (markLexeme ",") (paramLexemes params)) :=
        fun list => tokenCount_le_separated (markLexeme ",")
      rw [paramLexemes_eq_map] at bound ⊢
      rw [List.forall₂_map_left_iff]
      refine List.forall₂_same.mpr fun param member => ?_
      have inner := bound _ (List.mem_map_of_mem member)
      rw [← paramLexemes_eq_map, entryLexemes, tokenCount_append] at inner
      have spelled := (arePlainParams_iff.mp plain param member).2
      obtain ⟨name, type, variadic⟩ := param
      exact paramEntry_reads reads spelled (by omega)
    obtain ⟨entries, run, all⟩ := commaSeparated_reads ")" each filled
      (fun reach => .inl (isMark_mark reach "," ",")) (fun reach => .inr (isMark_mark reach ")" ")"))
      (by decide) (reach.behindToken .mark "(".toList) behind rest
    have same : entries.map ParamEntry.meaning = params := by
      rwa [← List.forall₂_eq_eq_eq, List.forall₂_map_left_iff]
    refine ⟨groupParams entries.length entries, ?_, ?_⟩
    · rw [bind_of_run (maybe_of_run run)]
      rfl
    · rw [groupParams_meaning le_rfl (by rwa [same]), same]

/-- Reads a single result without parentheses. -/
def singleResult (type : Reader TypeExpr) : Reader (List ParamExpr) := do
  let token ← next
  guard (!token.isMark "(")
  return [.mk [] (← type) token.start false]

theorem singleResult_run (other : first.isMark "(" = false) : singleResult type (first :: others) =
    (type (first :: others)).map fun pair => ([.mk [] pair.1 first.start false], pair.2) := by
  rw [singleResult, bind_of_run (next_cons _ _), other]
  have passes : (guard (!false) : Reader Unit) (first :: others) = some ((), first :: others) := rfl
  refine (bind_of_run passes).trans ?_
  rw [bind_run, Option.map_eq_bind]
  rfl

theorem signature_eq (type : Reader TypeExpr) : signature type = (do
    let params ← paramList type
    let results ← maybe (either (paramList type) (singleResult type))
    return .mk params (results.getD [])) := rfl

variable {results : List ParamMeaning}

/-- Results stand behind parameters, in front of what stops a type. -/
theorem results_read (reads : ReadsBelow limit (typeUpTo limit)) (plain : ArePlainParams results)
    (labelled : AreLabelled results) (single : ∀ result ∈ results, result.variadic = false)
    (short : tokenCount (resultLexemes results (paramLexemes results)) < limit) (reach : Reach)
    (stops : stop.IsStop) (rest : List Token) : ∃ exprs,
    maybe (either (paramList (typeUpTo limit)) (singleResult (typeUpTo limit)))
      (tokensFrom reach (resultLexemes results (paramLexemes results)) ++ stop :: rest) =
        some (exprs, stop :: rest) ∧ paramMeanings (exprs.getD []) = results := by
  have unopened : ∀ {first : Token}, first.isMark "(" = false → ∀ others,
      paramList (typeUpTo limit) (first :: others) = none :=
    fun other others => bind_of_none (mark_of_not other others)
  unfold resultLexemes at short ⊢
  split at short
  · have other : stop.isMark "(" = false := stops.isMark (by decide)
    refine ⟨none, maybe_of_none ?_, rfl⟩
    rw [tokensFrom_nil, List.nil_append, either_of_none (unopened other rest),
      singleResult_run other, typeUpTo_stop stops, Option.map_none]
  · -- A single type begins with no parenthesis.
    rename_i type variadic
    obtain rfl : variadic = false := single _ List.mem_cons_self
    rw [ArePlainParams] at plain
    have short : tokenCount type.lexemes < limit := by
      simp only [paramLexemes, labelLexemes, List.flatten_cons, tokenCount_blank,
        tokenCount_append] at short
      omega
    let between := (tokenAt reach (.blank ' ')).2
    obtain ⟨first, others, made, begins⟩ := type.begins plain.2.1 between
    obtain ⟨expr, read, same⟩ := reads type plain.2.1 short between stop rest stops
    have other : first.isMark "(" = false := begins.isMark (by decide)
    rw [made, List.cons_append] at read
    have whole : tokensFrom reach (.blank ' ' :: (paramLexemes [.mk none type false]).flatten) =
        first :: others := by
      rw [tokensFrom_space, ← made]
      exact congrArg _ (List.append_nil _)
    refine ⟨some [.mk [] expr first.start false], maybe_of_run ?_, ?_⟩
    · rw [whole, List.cons_append, either_of_none (unopened other _), singleResult_run other, read,
        Option.map_some]
    · rw [Option.getD_some, paramMeanings, same]
      rfl
  · let between := (tokenAt reach (.blank ' ')).2
    have short : tokenCount (separated (markLexeme ",") (paramLexemes results)) < limit := by
      simp only [tokenCount_append, tokenCount_blank, tokenCount_mark] at short
      omega
    obtain ⟨exprs, run, same⟩ := paramList_reads reads plain labelled short between
      (reachBehind between (markLexeme "(" :: separated (markLexeme ",") (paramLexemes results)))
      (stop :: rest)
    refine ⟨some exprs, maybe_of_run (either_of_run ?_), by rwa [Option.getD_some]⟩
    rw [List.cons_append, List.cons_append, tokensFrom_space, ← List.cons_append, tokensFrom_append,
      List.append_assoc]
    exact run

/-- A signature is read back in front of what stops a type. -/
theorem signature_reads {signature : SignatureMeaning} (reads : ReadsBelow limit (typeUpTo limit))
    (plain : signature.IsPlain) (short : tokenCount signature.lexemes < limit) :
    IsReadAs Token.IsStop (Reader.signature (typeUpTo limit)) signature.lexemes
      (·.meaning = signature) := by
  intro reach stop rest stops
  obtain ⟨params, results⟩ := signature
  rw [SignatureMeaning.IsPlain] at plain
  obtain ⟨taken, given, labelled, named, -, single⟩ := plain
  rw [SignatureMeaning.lexemes] at short ⊢
  simp only [tokenCount_append, tokenCount_mark] at short
  let behind := reachBehind reach (markLexeme "(" :: separated (markLexeme ",") (paramLexemes params))
  obtain ⟨results', run, same⟩ := results_read reads given named single (by omega)
    (behind.behindToken .mark ")".toList) stops rest
  obtain ⟨params', read, all⟩ := paramList_reads reads taken labelled (by omega) reach behind
    (tokensFrom (behind.behindToken .mark ")".toList) (resultLexemes results (paramLexemes results)) ++
      stop :: rest)
  refine ⟨.mk params' (results'.getD []), ?_, by simp only [SignatureExpr.meaning, same, all]⟩
  rw [tokensFrom_append, List.append_assoc, signature_eq]
  exact (bind_of_run read).trans (bind_of_run run)

end Entries

end Scaffold.Go
