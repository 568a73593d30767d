import Scaffold.Proofs.Imports.Block

/-! Declarations put into a file, put in the place of others, and imports put into them. -/

namespace Scaffold.Go

open Reader

/-- The elements of a file can be divided in front of a token. -/
theorem FileLexes.split_token {text after chars : List Char} {first more : List Lexeme}
    {kind : TokenKind} (reads : FileLexes text (first ++ .token kind chars :: more) after) :
    ∃ between, FileLexes text first between ∧ Lexes between (.token kind chars :: more) after := by
  cases first with
  | cons lexeme first => exact reads.split (.inl (List.cons_ne_nil _ _))
  | nil =>
    cases reads with
    | plain unmarked reads => exact ⟨text, .plain unmarked .nil, reads⟩

/-- A token of a text, with the elements and the characters on its two sides. -/
structure Stands (text : List Char) (token : Token) (before behind : List Lexeme)
    (chars tail : List Char) : Prop where
  front : FileLexes text before (chars ++ tail)
  here : Lexes (chars ++ tail) [.token token.kind chars] tail
  back : Lexes tail behind []
  made : token = (reachBehind {} before).token token.kind chars

namespace Stands

variable {text chars tail : List Char} {token : Token} {before behind : List Lexeme}

theorem whole (stands : Stands text token before behind chars tail) :
    FileLexes text (before ++ [.token token.kind chars]) tail :=
  stands.front.append stands.here

theorem start (stands : Stands text token before behind chars tail) :
    token.start = byteLength (lexemeChars before) := by
  rw [stands.made, Reach.token, reachBehind_offset]
  exact Nat.zero_add _

theorem stop (stands : Stands text token before behind chars tail) :
    token.stop = byteLength (lexemeChars (before ++ [.token token.kind chars])) := by
  have text : token.text.toList = chars := by rw [stands.made, Reach.token, String.toList_ofList]
  rw [Token.stop, stands.start, text, lexemeChars_append, byteLength_append]
  simp [Lexeme.chars]

/-- What a text is cut into in front of a token. -/
theorem cut_start (stands : Stands text token before behind chars tail) {first rest : List Char}
    (split : text = first ++ rest) (here : byteLength first = token.start) :
    first = lexemeChars before ∧ rest = chars ++ tail := by
  have whole := stands.front.chars
  exact append_inj_of_byteLength (split ▸ whole) (here.trans stands.start)

/-- What a text is cut into behind a token. -/
theorem cut_stop (stands : Stands text token before behind chars tail) {first rest : List Char}
    (split : text = first ++ rest) (here : byteLength first = token.stop) :
    first = lexemeChars (before ++ [.token token.kind chars]) ∧ rest = tail := by
  have whole := stands.whole.chars
  exact append_inj_of_byteLength (split ▸ whole) (here.trans stands.stop)

end Stands

/-- Every token that is no end stands somewhere in the text. -/
theorem FileLexes.stands {text : List Char} {lexemes : List Lexeme} {front rest : List Token}
    {token : Token} (reads : FileLexes text lexemes [])
    (made : placeTokens {} lexemes = front ++ token :: rest)
    (plain : token.kind ≠ .terminator ∧ token.kind ≠ .eof) : ∃ before behind chars tail,
      Stands text token before behind chars tail ∧
      lexemes = before ++ .token token.kind chars :: behind ∧ tokensFrom {} before = front ∧
      rest = placeTokens ((reachBehind {} before).behindToken token.kind chars) behind := by
  obtain ⟨before, chars, behind, rfl, fronts, isToken, after⟩ := placeTokens_eq_append made plain
  obtain ⟨between, one, others⟩ := reads.split_token
  cases others with
  | cons first others =>
    obtain ⟨taken, chars_eq, rfl⟩ := nextLexeme_split first
    rw [Lexeme.chars] at chars_eq
    subst chars_eq
    exact ⟨before, behind, _, _, ⟨one, .cons first .nil, others, isToken⟩, rfl, fronts, after⟩

/-- The package clause that a file is said to have is one of its items. -/
theorem ReadsAs.mem_of_package {text : String} {lexemes : List Lexeme}
    {items : List (Item × List Token)} {path : FilePath} {clause : PackageClause}
    (reads : ReadsAs text lexemes items)
    (found : (SourceFile.ofText path text).package? = some clause) :
    ∃ taken, (.package clause, taken) ∈ items := by
  rw [SourceFile.package?] at found
  obtain ⟨item, member, same⟩ := List.exists_of_findSome?_eq_some found
  rw [reads.items_eq] at member
  obtain ⟨⟨item, taken⟩, inside, rfl⟩ := List.mem_map.mp member
  cases item with
  | package other =>
    cases same
    exact ⟨taken, inside⟩
  | _ => cases same

/-- A declaration behind a package clause is read, and nothing else changes. -/
theorem gains_of_package {front read after after' : List Token} {key name ended : Token}
    {decl : ImportDecl} (closed : Closed (front ++ key :: name :: after))
    (closed' : Closed (front ++ key :: name :: ended :: (read ++ after')))
    (keyword : key.isMark "package" = true) (named : name.kind = .word)
    (ends : ended.kind = .terminator) (decls : DeclRead read decl)
    (like : List.Forall₂ Token.Like after after') (endless : endsItem after = true)
    (more : after ≠ []) (whole : (allItems (front ++ key :: name :: after)).2 = true) :
    (allItems (front ++ key :: name :: ended :: (read ++ after'))).2 = true ∧
      Gains (allItems (front ++ key :: name :: after)).1
        (allItems (front ++ key :: name :: ended :: (read ++ after'))).1
        (decl.specs.map ImportSpec.value) := by
  have barred : key.isBar = true := by simp [Token.isBar, keyword]
  have plain := Token.plain_of_isMark keyword
  have more' : after' ≠ [] := by
    rintro rfl
    exact more (List.forall₂_nil_right_iff.mp like)
  have last : Closed after := by
    have split : front ++ key :: name :: after = front ++ [key, name] ++ after := by simp
    exact (split ▸ closed).of_append more
  have inner : Closed (read ++ after') := by
    have split : front ++ key :: name :: ended :: (read ++ after') =
        front ++ [key, name, ended] ++ (read ++ after') := by simp
    exact (split ▸ closed').of_append (by simp [more'])
  have last' : Closed after' := inner.of_append more'
  obtain ⟨items, others, same, first, second⟩ :=
    allItems_agree closed closed' barred (.refl key) whole
  have clause := item_package keyword named
  have one : ItemAt (key :: name :: after) _ [key, name] after := ⟨rfl, by simp, clause _, endless⟩
  have other : ItemAt (key :: name :: ended :: (read ++ after')) _ [key, name]
      (ended :: (read ++ after')) := ⟨rfl, by simp, clause _, by simp [endsItem, ends]⟩
  have closedEnd : Closed (ended :: (read ++ after')) := by
    have split : front ++ key :: name :: ended :: (read ++ after') =
        front ++ [key, name] ++ ended :: (read ++ after') := by simp
    exact (split ▸ closed').of_append (by simp)
  rw [one.allItems plain.1 plain.2 last] at first
  rw [other.allItems plain.1 plain.2 closedEnd, allItems_terminator ends inner,
    allItems_of_declRead last' decls (endsItem_like like ▸ endless)] at second
  obtain ⟨alike, complete⟩ := allItems_alike like last
  have values := same.same
  have behind := alike.same
  rw [first] at whole
  rw [first, second]
  refine ⟨complete ▸ whole, ?_, ?_⟩
  · have clauses : ∀ (clause : PackageClause) (rest : List (Item × List Token)),
        valuesOf ((.package clause, [key, name]) :: rest) = valuesOf rest := fun _ _ => rfl
    rw [valuesOf_append, valuesOf_append, clauses, clauses, valuesOf_decl, values.1, behind.1,
      List.append_assoc]
    exact List.Perm.append_left _ List.perm_append_comm
  · rw [otherTexts_append, otherTexts_append, values.2]
    exact congrArg (_ ++ sourceOf [key, name] :: ·) behind.2.symm

/-- A declaration two lines below the package clause is one of the file. -/
theorem ReadsAs.addDecl {text : String} {lexemes : List Lexeme} {items : List (Item × List Token)}
    {path : FilePath} {clause : PackageClause} (reads : ReadsAs text lexemes items)
    (found : (SourceFile.ofText path text).package? = some clause) {kept tail : List Char}
    (split : text.toList = kept ++ tail) (here : byteLength kept = clause.stop)
    {added : List Char} {imports : List Import} (written : IsDeclText added imports) :
    ∃ lexemes' items',
      ReadsAs (String.ofList (kept ++ ('\n' :: '\n' :: added) ++ tail)) lexemes' items' ∧
      Gains items items' imports := by
  obtain ⟨taken, member⟩ := reads.mem_of_package found
  have closed := reads.closed
  have whole := congrArg Prod.snd reads.reads
  have gained := congrArg Prod.fst reads.reads
  simp only at whole gained
  rw [← gained] at member
  obtain ⟨front, after, made, -, last, run, ends⟩ := itemsTaken_mem closed member
  obtain ⟨key, name, tokens, keyword, named, rfl⟩ := package_of_item run
  have endless := ends whole
  rw [tokens] at made
  -- The name of the package stands in the text, which is divided behind it.
  have divided : placeTokens {} lexemes = (front ++ [key]) ++ name :: after := by simp [made]
  obtain ⟨before, behind, chars, tail', stands, lexemes_eq, fronts, after_eq⟩ :=
    reads.lexes.stands divided (by simp [named])
  obtain ⟨rfl, rfl⟩ := stands.cut_stop split here
  have one := stands.whole
  have isName := stands.made
  rw [named] at one isName lexemes_eq after_eq
  obtain ⟨-, new, newReads, newTokens⟩ := written
  have blank : ∀ rest, nextLexeme '\n' rest = some (.blank '\n', rest) :=
    nextLexeme_blank (by decide)
  have lexes : FileLexes (String.ofList (lexemeChars (before ++ [.token name.kind chars]) ++
      ('\n' :: '\n' :: added) ++ tail)).toList
      (before ++ [.token .word chars] ++ (.blank '\n' :: .blank '\n' :: (new ++ behind))) [] := by
    rw [String.toList_ofList, List.append_assoc, named]
    refine (one.seam (.of_break _ _) (by simp) (.inl (by simp))).append ?_
    exact .cons (blank _) (.cons (blank _) ((newReads tail).append stands.back))
  -- The first line break ends the clause, the second one only sets the declaration off.
  generalize reached : (reachBehind {} before).behindToken .word chars = reach at after_eq
  have ending : reach.ending = true := by rw [← reached]; rfl
  have gap : reach.gap = [] := by rw [← reached]; rfl
  obtain ⟨ended, inner, ends, broken⟩ : ∃ ended inner, ended.kind = .terminator ∧
      ∀ rest, placeTokens reach (.blank '\n' :: .blank '\n' :: rest) =
        ended :: placeTokens inner rest := by
    have first := tokenAt_break ending
    have second := tokenAt_blank (tokenAt reach (.blank '\n')).2 '\n' (.inr first.2)
    refine ⟨reach.token .terminator ['\n'],
      (tokenAt (tokenAt reach (.blank '\n')).2 (.blank '\n')).2, rfl, fun rest => ?_⟩
    rw [placeTokens_cons, placeTokens_cons, first.1, second.1]
    rfl
  obtain ⟨-, ⟨decl, decls, values⟩, ending', gap'⟩ := newTokens inner
  have like := placeTokens_like (⟨ending.trans ending'.symm, gap.trans gap'.symm⟩ :
    reach.Like (reachBehind inner new)) behind
  rw [← after_eq] at like
  have newMade : placeTokens {}
      (before ++ [.token .word chars] ++ (.blank '\n' :: .blank '\n' :: (new ++ behind))) =
        front ++ key :: name :: ended :: (tokensFrom inner new ++
          placeTokens (reachBehind inner new) behind) := by
    rw [placeTokens_append, tokensFrom_append, fronts, reachBehind_append, reachBehind, reachBehind,
      tokenAt, reached, broken, placeTokens_append, tokensFrom, tokensFrom, tokenAt, ← isName]
    simp
  have closed' := lexes.closed {}
  rw [newMade] at closed'
  rw [made] at closed whole gained
  obtain ⟨complete, gains⟩ := gains_of_package closed closed' keyword named ends decls like endless
    last.ne_nil whole
  rw [gained, values] at gains
  exact ⟨_, _, ⟨lexes, by rw [newMade]; exact Prod.ext rfl complete⟩, gains⟩

/-- The word that begins an import declaration is a keyword wherever it is read. -/
theorem kind_of_import {c : Char} {rest left : List Char} {kind : TokenKind}
    (read : nextLexeme c rest = some (.token kind "import".toList, left)) : kind = .keyword := by
  obtain ⟨taken, chars, -⟩ := nextLexeme_split read
  have lead : "import".toList = 'i' :: ['m', 'p', 'o', 'r', 't'] := by decide
  rw [Lexeme.chars, lead] at chars
  obtain ⟨rfl, -⟩ := List.cons.inj chars
  rw [nextLexeme_eq, if_neg (by decide), if_neg (by simp), if_neg (by simp),
    if_pos (by decide)] at read
  obtain ⟨word, -⟩ := Prod.mk.inj (Option.some.inj read)
  have text : 'i' :: (leadingRun Unicode.isIdentifierContinue rest).1 = "import".toList :=
    congrArg Lexeme.chars word
  rw [text] at word
  have isKeyword : wordLexeme "import".toList = .token .keyword "import".toList := by decide
  exact (Lexeme.token.inj (isKeyword.symm.trans word)).1.symm

/-- A text that begins with the keyword of a declaration may follow any other such text. -/
theorem Seam.of_import {first second : List Char} (one : "import".toList <+: first)
    (other : "import".toList <+: second) : Seam first second := by
  obtain ⟨rest, rfl⟩ := one
  obtain ⟨rest', rfl⟩ := other
  exact .of_three (by decide) rest rest'

/-- A declaration without parentheses that is replaced by another leaves everything else. -/
theorem ReadsAs.replaceSingle {text : String} {lexemes : List Lexeme}
    {items : List (Item × List Token)} {decl : ImportDecl} (reads : ReadsAs text lexemes items)
    (member : decl ∈ declsOf items) (single : decl.close = none) {kept cut tail : List Char}
    (split : text.toList = kept ++ (cut ++ tail)) (start : byteLength kept = decl.start)
    (stop : byteLength kept + byteLength cut = decl.stop) {added : List Char}
    {imports : List Import} (written : IsDeclText added imports) :
    ∃ lexemes' items' before later,
      ReadsAs (String.ofList (kept ++ added ++ tail)) lexemes' items' ∧
      otherTexts items' = otherTexts items ∧
      valuesOf items = before ++ (decl.specs.map ImportSpec.value ++ later) ∧
      valuesOf items' = before ++ (imports ++ later) := by
  have closed := reads.closed
  have whole := congrArg Prod.snd reads.reads
  have gained := congrArg Prod.fst reads.reads
  simp only at whole gained
  rw [← gained] at member
  obtain ⟨front, read, after, made, decls⟩ := declRead_of_mem closed member
  cases decls with
  | group => cases single
  | @single key read spec keyword one =>
    obtain ⟨named, path, rfl, literal, final⟩ : ∃ named path, read = named ++ [path] ∧
        path.kind = .text ∧ spec.stop = path.stop := by
      cases one with
      | plain text => exact ⟨[], _, rfl, text, rfl⟩
      | named bound text => exact ⟨[_], _, rfl, text, rfl⟩
    -- The declaration stands between its keyword and its path.
    have tokens : placeTokens {} lexemes = front ++ key :: (named ++ [path] ++ after) := by
      simp [made]
    have tokens' : placeTokens {} lexemes = (front ++ key :: named) ++ path :: after := by
      simp [made]
    obtain ⟨before, _, chars, between, first, -, rfl, -⟩ :=
      reads.lexes.stands tokens (Token.plain_of_isMark keyword)
    obtain ⟨before', behind, chars', between', last, -, -, after_eq⟩ :=
      reads.lexes.stands tokens' (by simp [literal])
    obtain ⟨rfl, others⟩ := first.cut_start split start
    have ends : byteLength (lexemeChars before ++ cut) = path.stop := by
      rw [byteLength_append, stop, final]
    obtain ⟨-, rfl⟩ := last.cut_stop (split.trans (List.append_assoc _ _ _).symm) ends
    have isImport : chars = "import".toList := by
      simp only [Token.isMark, Bool.and_eq_true, beq_iff_eq] at keyword
      rw [← keyword.2, first.made, Reach.token, String.toList_ofList]
    subst isImport
    obtain ⟨leads, new, newReads, newTokens⟩ := written
    have isKey : key = (reachBehind {} before).token .keyword "import".toList := by
      have here := first.here
      have made := first.made
      generalize "import".toList ++ between = text at here
      cases here with
      | cons read others =>
        rwa [kind_of_import read] at made
    have unmarked : ∀ c, (added ++ tail).head? = some c → c.toNat ≠ 0xFEFF := by
      obtain ⟨rest, rfl⟩ := leads
      rintro c ⟨⟩
      decide
    have unclosed : (added ++ tail).head? ≠ some ']' := by
      obtain ⟨rest, rfl⟩ := leads
      rintro ⟨⟩
    have lexes : FileLexes (String.ofList (lexemeChars before ++ added ++ tail)).toList
        (before ++ (new ++ behind)) [] := by
      rw [String.toList_ofList, List.append_assoc]
      refine (first.front.seam (.of_import (List.prefix_append _ _) ?_) unclosed
        (.inr unmarked)).append ?_
      · exact leads.trans (List.prefix_append _ _)
      · exact (newReads tail).append last.back
    obtain ⟨⟨_, newKey⟩, ⟨decl, decls, values⟩, ending, gap⟩ := newTokens (reachBehind {} before)
    have like := placeTokens_like (⟨by rw [literal, ending]; rfl, gap.symm⟩ :
      ((reachBehind {} before').behindToken path.kind chars').Like
        (reachBehind (reachBehind {} before) new)) behind
    rw [← after_eq] at like
    have newMade : placeTokens {} (before ++ (new ++ behind)) = tokensFrom {} before ++
        (tokensFrom (reachBehind {} before) new ++
          placeTokens (reachBehind (reachBehind {} before) new) behind) := by
      rw [placeTokens_append, placeTokens_append]
    have closed' := lexes.closed {}
    rw [newMade] at closed'
    rw [made] at closed whole gained
    have more : after ≠ [] := after_eq ▸ placeTokens_ne_nil _ behind
    obtain ⟨complete, texts, before', later, oldValues, newValues⟩ :=
      replaceDecl closed closed' more (.single keyword one) decls (by
        rintro key' key'' ⟨⟩ head
        rw [newKey] at head
        cases head
        rw [← isKey]
        exact .refl key) like whole
    rw [gained] at texts oldValues
    rw [values] at newValues
    exact ⟨_, _, before', later, ⟨lexes, by rw [newMade]; exact Prod.ext rfl complete⟩, texts,
      oldValues, newValues⟩

/-- Imports that a line break sets off from a body are imports of the body. -/
theorem GroupBody.extend {lexemes : List Lexeme} {front body : List Token} {key opened : Token}
    {specs : List ImportSpec} (inner : GroupBody body specs)
    (made : tokensFrom {} lexemes = front ++ key :: opened :: body)
    (keyword : key.isMark "import" = true) (opens : opened.isMark "(" = true) :
    (tokenAt (reachBehind {} lexemes) (.blank '\n')).2.ending = false ∧
      ∀ more news, EndedSpecs more news → GroupBody
        (body ++ ((tokenAt (reachBehind {} lexemes) (.blank '\n')).1 ++ more)) (specs ++ news) := by
  cases inner with
  | ended all =>
    have ending := IsInside.ending ⟨front, key, opened, body, specs, made, keyword, opens, all⟩
    obtain ⟨none, same⟩ := tokenAt_blank (reachBehind {} lexemes) '\n' (.inr ending)
    refine ⟨same.trans ending, fun more news ended => ?_⟩
    rw [none, List.nil_append]
    exact .ended (all.append ended)
  | @unended tokens read spec specs all last =>
    -- Behind the path of the last import the line break ends a statement.
    obtain ⟨named, path, rfl, literal⟩ : ∃ named path, read = named ++ [path] ∧
        path.kind = .text := by
      cases last with
      | plain text => exact ⟨[], _, rfl, text⟩
      | named bound text => exact ⟨[_], _, rfl, text⟩
    have split : front ++ key :: opened :: (tokens ++ (named ++ [path])) =
        (front ++ key :: opened :: (tokens ++ named)) ++ [path] := by simp
    have final : (tokensFrom {} lexemes).getLast? = some path := by
      rw [made, split, List.getLast?_concat]
    have ending : (reachBehind {} lexemes).ending = true := by
      rw [ending_of_getLast? final, literal]
      rfl
    obtain ⟨stop, unended⟩ := tokenAt_break ending
    refine ⟨unended, fun more news ended => ?_⟩
    rw [stop]
    have one : EndedSpecs (named ++ [path] ++
        (reachBehind {} lexemes).token .terminator ['\n'] :: more) (spec :: news) :=
      .cons last rfl ended
    simpa using GroupBody.ended (all.append one)

/-- Imports put in front of a closing parenthesis are imports of the declaration. -/
theorem ReadsAs.insertInside {text : String} {lexemes : List Lexeme}
    {items : List (Item × List Token)} {decl : ImportDecl} {close : Nat}
    (reads : ReadsAs text lexemes items) (member : decl ∈ declsOf items)
    (group : decl.close = some close) {kept tail : List Char}
    (split : text.toList = kept ++ tail) (here : byteLength kept = close) {added : List Char}
    {imports : List Import} (written : SpecText added imports) : ∃ lexemes' items',
      ReadsAs (String.ofList (kept ++ '\n' :: added ++ tail)) lexemes' items' ∧
      Gains items items' imports := by
  have closed := reads.closed
  have whole := congrArg Prod.snd reads.reads
  have gained := congrArg Prod.fst reads.reads
  simp only at whole gained
  rw [← gained] at member
  obtain ⟨front, read, after, made, decls⟩ := declRead_of_mem closed member
  cases decls with
  | single => cases group
  | @group key opened closes body specs keyword opens inner closing =>
    cases group
    have tokens : placeTokens {} lexemes = (front ++ key :: opened :: body) ++ closes :: after := by
      simp [made]
    obtain ⟨before, behind, chars, tail', stands, rfl, fronts, after_eq⟩ :=
      reads.lexes.stands tokens (Token.plain_of_isMark closing)
    obtain ⟨rfl, rfl⟩ := stands.cut_start split here
    obtain ⟨new, newReads, newTokens⟩ := written.read
    have lexes : FileLexes (String.ofList (lexemeChars before ++ '\n' :: added ++
        (chars ++ tail'))).toList
        (before ++ (.blank '\n' :: (new ++ .token closes.kind chars :: behind))) [] := by
      rw [String.toList_ofList, List.append_assoc]
      refine (stands.front.seam (.of_break _ _) (by simp) (.inr (by rintro c ⟨⟩; decide))).append ?_
      refine .cons (nextLexeme_blank (by decide) _) ((newReads _).append ?_)
      exact stands.here.append stands.back
    obtain ⟨unended, extended⟩ := inner.extend fronts keyword opens
    generalize broken : tokenAt (reachBehind {} before) (.blank '\n') = pair at unended extended
    obtain ⟨news, ended, values, -⟩ := newTokens pair.2 unended
    have closing' : ((reachBehind pair.2 new).token closes.kind chars).isMark ")" = true := by
      have near : closes.Near ((reachBehind pair.2 new).token closes.kind chars) :=
        ⟨rfl, (congrArg Token.text stands.made : closes.text = String.ofList chars)⟩
      rwa [near.isMark] at closing
    have decls := DeclRead.group keyword opens (extended _ _ ended) closing'
    have like := placeTokens_like (⟨rfl, rfl⟩ :
      ((reachBehind {} before).behindToken closes.kind chars).Like
        ((reachBehind pair.2 new).behindToken closes.kind chars)) behind
    rw [← after_eq] at like
    have newMade : placeTokens {}
        (before ++ (.blank '\n' :: (new ++ .token closes.kind chars :: behind))) =
          front ++ (key :: opened :: (body ++ (pair.1 ++ tokensFrom pair.2 new)) ++
            [(reachBehind pair.2 new).token closes.kind chars] ++
              placeTokens ((reachBehind pair.2 new).behindToken closes.kind chars) behind) := by
      rw [placeTokens_append, fronts, placeTokens_cons, broken, placeTokens_append, placeTokens]
      simp
    have closed' := lexes.closed {}
    rw [newMade] at closed'
    rw [made] at closed whole gained
    have more : after ≠ [] := after_eq ▸ placeTokens_ne_nil _ behind
    obtain ⟨complete, texts, before', later, oldValues, newValues⟩ :=
      replaceDecl closed closed' more (.group keyword opens inner closing) decls (by
        rintro key' key'' ⟨⟩ ⟨⟩
        exact .refl key) like whole
    rw [gained] at texts oldValues
    refine ⟨_, _, ⟨lexes, by rw [newMade]; exact Prod.ext rfl complete⟩, ?_, texts⟩
    rw [oldValues, newValues, List.map_append, map_value_of_isImportOf values, List.perm_iff_count]
    intro value
    simp only [List.count_append]
    omega

end Scaffold.Go
