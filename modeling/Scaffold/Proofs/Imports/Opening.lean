import Mathlib.Data.List.Induction
import Scaffold.Proofs.Go.Breaks
import Scaffold.Proofs.Go.Written
import Scaffold.Proofs.Imports.Gain

/-! Places between the parentheses of an import declaration, and lines of imports put there. -/

namespace Scaffold.Go

open Reader

/-- An import is read from the tokens in one way. -/
theorem SpecRead.unique {read read' rest rest' : List Token} {spec spec' : ImportSpec}
    (one : SpecRead read spec) (other : SpecRead read' spec')
    (same : read ++ rest = read' ++ rest') : read = read' ∧ spec = spec' ∧ rest = rest' := by
  have first : Reader.importSpec (read ++ rest) = some (spec, rest) :=
    importSpec_eq_some.mpr ⟨read, rfl, one⟩
  have second : Reader.importSpec (read ++ rest) = some (spec', rest') :=
    importSpec_eq_some.mpr ⟨read', same, other⟩
  rw [first] at second
  cases second
  exact ⟨List.append_cancel_right same, rfl, rfl⟩

/-- What an import is read from is no end of a statement and no parenthesis. -/
theorem SpecRead.head {read : List Token} {spec : ImportSpec} (one : SpecRead read spec) :
    ∃ first rest, read = first :: rest ∧ first.isMark "(" = false ∧ first.isMark ")" = false ∧
      first.kind ≠ .terminator := by
  cases one with
  | plain text =>
    exact ⟨_, [], rfl, Token.isMark_eq_false (by simp [text]) (by simp [text]) _,
      Token.isMark_eq_false (by simp [text]) (by simp [text]) _, by simp [text]⟩
  | named bound text =>
    refine ⟨_, _, rfl, ?_⟩
    rcases bound with word | dot
    · exact ⟨Token.isMark_eq_false (by simp [word]) (by simp [word]) _,
        Token.isMark_eq_false (by simp [word]) (by simp [word]) _, by simp [word]⟩
    · exact ⟨Token.isMark_of_isMark dot (by decide), Token.isMark_of_isMark dot (by decide),
        (Token.plain_of_isMark dot).1⟩

/-- What is related to a list made of two parts is made of two parts. -/
theorem forall₂_append {α β : Type} {R : α → β → Prop} {front back : List α} {ys : List β}
    (related : List.Forall₂ R (front ++ back) ys) : ∃ first second, ys = first ++ second ∧
      List.Forall₂ R front first ∧ List.Forall₂ R back second := by
  refine ⟨ys.take front.length, ys.drop front.length, (List.take_append_drop _ _).symm, ?_, ?_⟩
  · have taken := List.forall₂_take front.length related
    rwa [List.take_left] at taken
  · have dropped := List.forall₂_drop front.length related
    rwa [List.drop_left] at dropped

section Near

variable {xs ys : List Token}

/-- Only the kinds and texts of its tokens matter to an import. -/
theorem SpecRead.near {spec : ImportSpec} (one : SpecRead xs spec)
    (near : List.Forall₂ Token.Near xs ys) : ∃ spec', SpecRead ys spec' ∧ spec.Like spec' := by
  cases one with
  | plain text =>
    cases near with
    | cons path none =>
      cases none
      exact ⟨_, .plain (path.1 ▸ text), rfl, congrArg unquote path.2⟩
  | named bound text =>
    cases near with
    | cons name more =>
      cases more with
      | cons path none =>
        cases none
        refine ⟨_, .named ?_ (path.1 ▸ text), congrArg some name.2, congrArg unquote path.2⟩
        exact bound.imp (fun word => name.1 ▸ word) fun dot => name.isMark "." ▸ dot

theorem EndedSpecs.near {specs : List ImportSpec} (all : EndedSpecs xs specs)
    (near : List.Forall₂ Token.Near xs ys) :
    ∃ specs', EndedSpecs ys specs' ∧ List.Forall₂ ImportSpec.Like specs specs' := by
  induction all generalizing ys with
  | nil =>
    cases near
    exact ⟨[], .nil, .nil⟩
  | cons first ended _ ih =>
    obtain ⟨read', more, rfl, reads, others⟩ := forall₂_append near
    cases others with
    | cons stop rest =>
      obtain ⟨spec', one, like⟩ := first.near reads
      obtain ⟨specs', all, likes⟩ := ih rest
      exact ⟨spec' :: specs', .cons one (stop.1 ▸ ended) all, .cons like likes⟩

theorem GroupBody.near {specs : List ImportSpec} (body : GroupBody xs specs)
    (near : List.Forall₂ Token.Near xs ys) :
    ∃ specs', GroupBody ys specs' ∧ List.Forall₂ ImportSpec.Like specs specs' := by
  cases body with
  | ended all =>
    obtain ⟨specs', all, likes⟩ := all.near near
    exact ⟨specs', .ended all, likes⟩
  | unended front last =>
    obtain ⟨front', last', rfl, fronts, lasts⟩ := forall₂_append near
    obtain ⟨specs', all, likes⟩ := front.near fronts
    obtain ⟨spec', one, like⟩ := last.near lasts
    exact ⟨specs' ++ [spec'], .unended all one, List.rel_append likes (.cons like .nil)⟩

end Near

/-- Ended imports may stand in front of any others between parentheses. -/
theorem EndedSpecs.body {xs ys : List Token} {specs others : List ImportSpec}
    (front : EndedSpecs xs specs) (back : GroupBody ys others) :
    GroupBody (xs ++ ys) (specs ++ others) := by
  cases back with
  | ended all => exact .ended (front.append all)
  | unended all last =>
    rw [← List.append_assoc, ← List.append_assoc]
    exact .unended (front.append all) last

/-- A body has no import, or an ended one and others behind it, or one that is not ended. -/
theorem GroupBody.eq_or {body : List Token} {specs : List ImportSpec}
    (inner : GroupBody body specs) : body = [] ∧ specs = [] ∨
      (∃ read stop rest spec others, body = read ++ stop :: rest ∧ specs = spec :: others ∧
        SpecRead read spec ∧ stop.kind = .terminator ∧ GroupBody rest others) ∨
      ∃ spec, SpecRead body spec ∧ specs = [spec] := by
  cases inner with
  | ended all =>
    cases all with
    | nil => exact .inl ⟨rfl, rfl⟩
    | cons first ended more =>
      exact .inr (.inl ⟨_, _, _, _, _, rfl, rfl, first, ended, .ended more⟩)
  | unended front last =>
    cases front with
    | nil => exact .inr (.inr ⟨_, last, rfl⟩)
    | cons first ended more =>
      exact .inr (.inl ⟨_, _, _, _, _, by simp, rfl, first, ended, .unended more last⟩)

/-- Imports that are ended are the first ones of a body that begins with their tokens. -/
theorem GroupBody.behind {done body rest after : List Token} {closed : Token}
    {specs all : List ImportSpec} (ended : EndedSpecs done specs) (inner : GroupBody body all)
    (closes : closed.isMark ")" = true) (same : body ++ closed :: after = done ++ rest) :
    ∃ left others, body = done ++ left ∧ rest = left ++ closed :: after ∧
      GroupBody left others ∧ all = specs ++ others := by
  induction ended generalizing body all with
  | nil => exact ⟨body, all, rfl, same.symm, inner, rfl⟩
  | @cons read more stop spec specs first ends _ ih =>
    obtain ⟨token, others, rfl, -, open?, plain⟩ := first.head
    rcases inner.eq_or with ⟨rfl, rfl⟩ |
      ⟨read', stop', more', spec', all, rfl, rfl, one, -, inside⟩ | ⟨spec', one, rfl⟩
    · obtain ⟨rfl, -⟩ := List.cons.inj same
      rw [closes] at open?
      cases open?
    · have split : read' ++ (stop' :: more' ++ closed :: after) =
          token :: others ++ (stop :: more ++ rest) := by simpa using same
      obtain ⟨rfl, rfl, tail⟩ := one.unique first split
      obtain ⟨rfl, others⟩ := List.cons.inj tail
      obtain ⟨left, specs', rfl, rfl, last, rfl⟩ := ih inside others
      exact ⟨left, specs', by simp, rfl, last, rfl⟩
    · have split : body ++ closed :: after = token :: others ++ (stop :: more ++ rest) := by
        simpa using same
      obtain ⟨rfl, rfl, behind⟩ := one.unique first split
      obtain ⟨rfl, -⟩ := List.cons.inj behind
      rcases Token.kind_of_isMark closes with kind | kind <;> rw [kind] at ends <;> cases ends

/-- Whether a statement may end behind some elements is told by the last token. -/
theorem ending_of_getLast? {reach : Reach} {lexemes : List Lexeme} {token : Token}
    (last : (tokensFrom reach lexemes).getLast? = some token) :
    (reachBehind reach lexemes).ending = endsStatement token.kind token.text := by
  induction lexemes using List.reverseRecOn with
  | nil => cases last
  | append_singleton front lexeme ih =>
    rw [tokensFrom_append, tokensFrom, tokensFrom, List.append_nil, List.getLast?_append] at last
    rw [reachBehind_append, reachBehind, reachBehind]
    cases lexeme with
    | token kind text =>
      cases last
      rfl
    | comment text => exact ih last
    | blank c =>
      rw [tokenAt] at last ⊢
      split at last <;> rename_i breaks
      · cases last
        rw [if_pos breaks]
        rfl
      · rw [if_neg breaks]
        exact ih last

/-- Tokens that end inside the parentheses of an import declaration, with no import begun. -/
def IsInside (tokens : List Token) : Prop :=
  ∃ front key opened done specs, tokens = front ++ key :: opened :: done ∧
    key.isMark "import" = true ∧ opened.isMark "(" = true ∧ EndedSpecs done specs

/-- An offset between two elements at which lines of imports can be put. -/
def Opening (lexemes : List Lexeme) (offset : Nat) : Prop :=
  ∃ before behind, lexemes = before ++ behind ∧ byteLength (lexemeChars before) = offset ∧
    IsInside (tokensFrom {} before)

/-- The last of ended imports ends with the end of a statement. -/
theorem EndedSpecs.getLast? {tokens : List Token} {specs : List ImportSpec}
    (all : EndedSpecs tokens specs) :
    tokens = [] ∨ ∃ last, tokens.getLast? = some last ∧ last.kind = .terminator := by
  induction all with
  | nil => exact .inl rfl
  | @cons read rest stop _ _ _ ended _ ih =>
    refine .inr ?_
    rcases ih with rfl | ⟨last, final, kind⟩
    · exact ⟨stop, by simp, ended⟩
    · exact ⟨last, by simp [List.getLast?_append, List.getLast?_cons, final], kind⟩

/-- Inside parentheses no statement ends. -/
theorem IsInside.ending {lexemes : List Lexeme} (inside : IsInside (tokensFrom {} lexemes)) :
    (reachBehind {} lexemes).ending = false := by
  obtain ⟨front, key, opened, done, specs, tokens, -, opens, ended⟩ := inside
  rcases ended.getLast? with rfl | ⟨last, final, kind⟩
  · have last : (tokensFrom {} lexemes).getLast? = some opened := by simp [tokens]
    rw [ending_of_getLast? last]
    simp only [Token.isMark, Bool.and_eq_true, Bool.or_eq_true, beq_iff_eq] at opens
    rcases opens with ⟨kind | kind, text⟩ <;> rw [kind, text] <;> rfl
  · have last : (tokensFrom {} lexemes).getLast? = some last := by
      rw [tokens, List.getLast?_append, List.getLast?_cons, List.getLast?_cons, final]
      rfl
    rw [ending_of_getLast? last, kind]
    rfl

/-- Only the first of two alike lists may differ in the gap, also where they are divided. -/
theorem near_append {token other : Token} {rest others front after : List Token} {middle : Token}
    (near : token.Near other) (like : List.Forall₂ Token.Like rest others)
    (split : token :: rest = front ++ middle :: after) : ∃ front' middle' after',
      other :: others = front' ++ middle' :: after' ∧ List.Forall₂ Token.Near front front' ∧
      middle.Near middle' ∧ List.Forall₂ Token.Like after after' := by
  cases front with
  | nil =>
    cases split
    exact ⟨[], other, others, rfl, .nil, near, like⟩
  | cons first front =>
    obtain ⟨rfl, rfl⟩ := List.cons.inj split
    obtain ⟨front', behind, rfl, fronts, behinds⟩ := forall₂_append like
    cases behinds with
    | @cons _ middle' _ after' middles afters =>
      exact ⟨other :: front', middle', after', rfl, .cons near (fronts.imp fun _ _ => Token.Like.near),
        middles.near, afters⟩

/-- The keyword of a declaration begins one, if all tokens can be read. -/
theorem declRead_of_key {front rest : List Token} {key : Token}
    (closed : Closed (front ++ key :: rest)) (keyword : key.isMark "import" = true)
    (whole : (allItems (front ++ key :: rest)).2 = true) : ∃ read decl after,
      key :: rest = read ++ after ∧ DeclRead read decl ∧ after ≠ [] := by
  have barred : key.isBar = true := by simp [Token.isBar, keyword]
  have plain := Token.plain_of_isMark keyword
  obtain ⟨items, -, -, first, -⟩ := allItems_agree closed closed barred (.refl key) whole
  rw [first] at whole
  have start : behindEnds (key :: rest) = key :: rest := by simp [behindEnds, plain.1]
  have notEof : (key.kind == .eof) = false := by simpa using plain.2
  cases run : item (key :: rest) with
  | none =>
    simp [allItems, itemsTaken, start, notEof, Reading.withTaken_run, run] at whole
  | some pair =>
    obtain ⟨read, after⟩ := pair
    have inner : Closed (key :: rest) := closed.of_append (by simp)
    obtain ⟨-, -, -, last⟩ := inner.of_item plain.2 run
    rw [item_import keyword] at run
    obtain ⟨⟨decl, behind⟩, found, same⟩ := Option.map_eq_some_iff.mp run
    cases same
    obtain ⟨tokens, split, decls⟩ := importDecl_eq_some.mp found
    exact ⟨tokens, decl, _, split, decls, last.ne_nil⟩

/-- The imports that are written are the ones that are read. -/
theorem map_value_of_isImportOf {imports : List Import} {specs : List ImportSpec}
    (values : List.Forall₂ IsImportOf imports specs) : specs.map ImportSpec.value = imports := by
  induction values with
  | nil => rfl
  | cons one _ ih => rw [List.map_cons, ih, ImportSpec.value, one.1, one.2]

/-- Ended imports among those of a declaration are gained, and nothing else changes. -/
theorem gains_of_inside {front done new rest others : List Token} {key opened token other : Token}
    {dones news : List ImportSpec}
    (closed : Closed (front ++ key :: opened :: (done ++ token :: rest)))
    (closed' : Closed (front ++ key :: opened :: (done ++ (new ++ other :: others))))
    (keyword : key.isMark "import" = true) (opens : opened.isMark "(" = true)
    (all : EndedSpecs done dones) (ended : EndedSpecs new news) (near : token.Near other)
    (like : List.Forall₂ Token.Like rest others)
    (whole : (allItems (front ++ key :: opened :: (done ++ token :: rest))).2 = true) :
    (allItems (front ++ key :: opened :: (done ++ (new ++ other :: others)))).2 = true ∧
      Gains (allItems (front ++ key :: opened :: (done ++ token :: rest))).1
        (allItems (front ++ key :: opened :: (done ++ (new ++ other :: others)))).1
        (news.map ImportSpec.value) := by
  -- The declaration goes on behind the place that the new imports are put at.
  obtain ⟨read, decl, after, same, decls, more⟩ := declRead_of_key closed keyword whole
  cases decls with
  | @single key' read spec keyword' one =>
    obtain ⟨head, others, rfl, unopened, -⟩ := one.head
    obtain ⟨-, sameOpened⟩ := List.cons.inj same
    obtain ⟨rfl, -⟩ := List.cons.inj sameOpened
    rw [opens] at unopened
    cases unopened
  | @group key' opened' close body specs keyword' opens' inner closes =>
    have bodies : opened :: (done ++ token :: rest) = opened' :: (body ++ close :: after) := by
      simpa using (List.cons.inj same).2
    obtain ⟨rfl, inside⟩ := List.cons.inj bodies
    obtain ⟨left, lefts, rfl, split, leftBody, rfl⟩ := inner.behind all closes inside.symm
    obtain ⟨left', close', after', split', leftNear, closeNear, afterLike⟩ :=
      near_append near like split
    obtain ⟨lefts', leftBody', leftLike⟩ := leftBody.near leftNear
    have old : DeclRead (key :: opened :: (done ++ left) ++ [close]) _ :=
      .group keyword opens inner closes
    have new' : DeclRead (key :: opened :: (done ++ (new ++ left')) ++ [close']) _ :=
      .group keyword opens (all.body (ended.body leftBody')) (closeNear.isMark ")" ▸ closes)
    have oldSplit : front ++ key :: opened :: (done ++ token :: rest) =
        front ++ ((key :: opened :: (done ++ left) ++ [close]) ++ after) := by
      simp [split]
    have newSplit : front ++ key :: opened :: (done ++ (new ++ other :: others)) =
        front ++ ((key :: opened :: (done ++ (new ++ left')) ++ [close']) ++ after') := by
      simp [split']
    rw [oldSplit] at closed whole ⊢
    rw [newSplit] at closed' ⊢
    obtain ⟨wholeNew, texts, before, later, oldValues, newValues⟩ :=
      replaceDecl closed closed' more old new' (by
        rintro _ _ ⟨⟩ ⟨⟩
        exact .refl key) afterLike whole
    refine ⟨wholeNew, ?_, texts⟩
    rw [oldValues, newValues, List.perm_iff_count]
    intro value
    simp only [List.map_append, List.count_append, map_value_of_like leftLike]
    omega

/-- Lines put at an opening are imports of the declaration there, and nothing else changes. -/
theorem ReadsAs.insert {text : String} {lexemes : List Lexeme} {items : List (Item × List Token)}
    (reads : ReadsAs text lexemes items) {kept tail : List Char}
    (split : text.toList = kept ++ tail) (begins : kept.getLast? = some '\n')
    (opening : Opening lexemes (byteLength kept)) {added : List Char} {imports : List Import}
    (written : SpecText added imports) : ∃ lexemes' items',
      ReadsAs (String.ofList (kept ++ added ++ tail)) lexemes' items' ∧
      Gains items items' imports ∧
      ∀ offset ≤ byteLength kept, Opening lexemes offset → Opening lexemes' offset := by
  obtain ⟨before, behind, rfl, length, inside⟩ := opening
  have chars := reads.chars
  rw [split, lexemeChars_append] at chars
  obtain ⟨rfl, rfl⟩ := append_inj_of_byteLength chars length.symm
  -- The elements in front and behind are found again, with new ones between them.
  have some : before ≠ [] := by
    rintro rfl
    cases begins
  obtain ⟨between, front, back⟩ := reads.lexes.split (.inl some)
  have rest := back.chars
  rw [List.append_nil] at rest
  subst rest
  obtain ⟨new, newReads, newTokens⟩ := written.read
  have lexes : FileLexes (String.ofList (lexemeChars before ++ added ++ lexemeChars behind)).toList
      (before ++ (new ++ behind)) [] := by
    rw [String.toList_ofList, List.append_assoc]
    exact (front.behind_break begins _).append ((newReads _).append back)
  have ending := inside.ending
  obtain ⟨specs, ended, values, unended⟩ := newTokens _ ending
  obtain ⟨token, other, rest, others, first, second, near, like⟩ :=
    placeTokens_near (ending.trans unended.symm) behind
  have closed := reads.closed
  have closed' := lexes.closed {}
  have whole := congrArg Prod.snd reads.reads
  have gained := congrArg Prod.fst reads.reads
  obtain ⟨start, key, opened, done, dones, made, keyword, opens, all⟩ := inside
  have oldTokens : placeTokens {} (before ++ behind) =
      start ++ key :: opened :: (done ++ token :: rest) := by
    rw [placeTokens_append, made, first]
    simp
  have newTokens : placeTokens {} (before ++ (new ++ behind)) = start ++ key :: opened :: (done ++
      (tokensFrom (reachBehind {} before) new ++ other :: others)) := by
    rw [placeTokens_append, placeTokens_append, made, second]
    simp
  rw [oldTokens] at closed whole gained
  rw [newTokens] at closed'
  obtain ⟨complete, gains⟩ :=
    gains_of_inside closed closed' keyword opens all ended near like whole
  rw [gained, map_value_of_isImportOf values] at gains
  refine ⟨before ++ (new ++ behind), _, ⟨lexes, ?_⟩, gains, ?_⟩
  · rw [newTokens]
    exact Prod.ext rfl complete
  · rintro offset within ⟨earlier, later, same, rfl, inner⟩
    -- An opening further to the front has its elements in front still.
    obtain ⟨more, rfl⟩ : ∃ more, before = earlier ++ more := by
      rcases List.append_eq_append_iff.mp same with ⟨more, rfl, rfl⟩ | ⟨more, rfl, -⟩
      · obtain ⟨middle, shared, -⟩ := back.split
        rw [lexemeChars_append, byteLength_append] at within
        have nothing := shared.eq_nil (eq_nil_of_byteLength (by omega))
        exact ⟨[], by simp [nothing]⟩
      · exact ⟨more, rfl⟩
    exact ⟨earlier, more ++ (new ++ behind), by simp, rfl, inner⟩

/-- A cut right behind a line break. -/
def BehindBreak (text : List Char) (offset : Nat) : Prop :=
  ∃ kept tail, text = kept ++ tail ∧ byteLength kept = offset ∧ kept.getLast? = some '\n'

/-- An insertion of lines of imports at an opening. -/
def IsLineEdit (text : List Char) (lexemes : List Lexeme) (edit : Edit) (imports : List Import) :
    Prop :=
  ∃ offset new, edit = .insertion offset new ∧ SpecText new.toList imports ∧
    Opening lexemes offset ∧ BehindBreak text offset

/-- Lines put at any number of openings are imports, and nothing else changes. -/
theorem ReadsAs.insertAll {text : String} {lexemes : List Lexeme}
    {items : List (Item × List Token)} (reads : ReadsAs text lexemes items) {edits : List Edit}
    {imports : List (List Import)}
    (ascending : edits.Pairwise fun first second => first.start ≤ second.start)
    (lines : List.Forall₂ (IsLineEdit text.toList lexemes) edits imports) :
    ∃ out lexemes' items', applyOrdered (byteLength text.toList) 0 text.toList edits = .ok out ∧
      ReadsAs (String.ofList out) lexemes' items' ∧ Gains items items' imports.flatten ∧
      ∀ offset, (∀ edit ∈ edits, offset ≤ edit.start) → Opening lexemes offset →
        Opening lexemes' offset := by
  -- The last lines are put in first, so that the other places stay where they are.
  induction lines with
  | nil =>
    refine ⟨text.toList, lexemes, items, rfl, ?_, .refl items, fun _ _ opening => opening⟩
    rwa [String.ofList_toList]
  | @cons edit new edits imports first _ ih =>
    obtain ⟨least, ascending⟩ := List.pairwise_cons.mp ascending
    obtain ⟨out, lexemes', items', made, reads', gains, openings⟩ := ih ascending
    obtain ⟨offset, added, rfl, written, opening, kept, tail, split, rfl, begins⟩ := first
    have fits : 0 + byteLength kept ≤ byteLength text.toList := by
      rw [split, byteLength_append]
      omega
    have behind : ∀ edit ∈ edits, 0 + byteLength kept ≤ edit.start := by
      intro edit member
      rw [Nat.zero_add]
      exact least edit member
    rw [split] at made
    obtain ⟨tail', rfl, applied⟩ :=
      applyOrdered_insertion_first kept tail added (split ▸ fits) behind made
    rw [← split, Nat.zero_add] at applied
    obtain ⟨lexemes'', items'', reads'', gains', openings'⟩ :=
      reads'.insert String.toList_ofList begins (openings _ (fun edit member => least edit member)
        opening) written
    refine ⟨_, lexemes'', items'', applied, reads'', ?_, ?_⟩
    · have both := gains.trans gains'
      refine ⟨both.values.trans (List.Perm.append_left _ ?_), both.others⟩
      exact List.perm_append_comm
    · intro offset before open'
      exact openings' offset (before _ List.mem_cons_self) (openings offset
        (fun edit member => before edit (by simp [member])) open')

end Scaffold.Go
