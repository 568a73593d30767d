import Scaffold.Proofs.Go.File

/-! Words are names, and so are the names that types and functions are read with. -/

namespace Scaffold.Go

open Reading Reader

/-- A name is not empty. -/
theorem ne_of_isName {name : String} (named : isName name.toList = true) : name ≠ "" := by
  rintro rfl
  cases named

/-- Tokens that the elements of some text make, with the one for its end. -/
def AreMade (tokens : List Token) : Prop :=
  ∃ text lexemes after reach, Lexes text lexemes after ∧ tokens = placeTokens reach lexemes

/-- Behind the first of them, others are made of the elements further on. -/
theorem AreMade.tail {token : Token} {rest : List Token} (made : AreMade (token :: rest))
    (more : rest ≠ []) : AreMade rest := by
  obtain ⟨text, lexemes, after, reach, lexes, same⟩ := made
  induction lexes generalizing reach with
  | nil =>
    obtain ⟨-, rfl⟩ := List.cons.inj same
    exact absurd rfl more
  | @cons c chars between after lexeme others first behind ih =>
    rw [placeTokens_cons] at same
    rcases tokenAt_tokens reach lexeme with none | ⟨made, one, -, -⟩
    · rw [none, List.nil_append] at same
      exact ih _ same
    · rw [one, List.singleton_append] at same
      exact ⟨between, others, after, _, behind, (List.cons.inj same).2⟩

theorem AreMade.of_append {front back : List Token} (made : AreMade (front ++ back))
    (more : back ≠ []) : AreMade back := by
  induction front with
  | nil => exact made
  | cons token front ih => exact ih (made.tail (by simp [more]))

/-- The tokens of a file are made of its elements. -/
theorem FileLexes.areMade {text after : List Char} {lexemes : List Lexeme}
    (reads : FileLexes text lexemes after) (reach : Reach) : AreMade (placeTokens reach lexemes) := by
  cases reads with
  | plain unmarked reads => exact ⟨text, lexemes, after, reach, reads, rfl⟩
  | @marked c rest _ lexemes mark reads =>
    refine ⟨rest, lexemes, after, (tokenAt reach (.blank c)).2, reads, ?_⟩
    have plain : c ≠ '\n' := by
      rintro rfl
      cases mark
    rw [placeTokens_cons, (tokenAt_blank reach c (.inl plain)).1, List.nil_append]

/-- Tokens up to the end of a file, of which the words are names. -/
structure IsWorded (tokens : List Token) : Prop where
  words : ∀ token ∈ tokens, token.kind = .word → isName token.text.toList = true
  closed : Closed tokens
  made : AreMade tokens

/-- What is left behind some worded tokens is worded, unless nothing is. -/
theorem IsWorded.of_append {front back : List Token} (worded : IsWorded (front ++ back))
    (more : back ≠ []) : IsWorded back :=
  ⟨fun token member => worded.words token (List.mem_append_right _ member),
    worded.closed.of_append more, worded.made.of_append more⟩

/-- A reader that makes something good of worded tokens, and leaves worded ones. -/
def Yields {α : Type} (reader : Reader α) (good : α → Prop) : Prop :=
  ∀ tokens, IsWorded tokens → ∀ value rest, reader tokens = some (value, rest) →
    good value ∧ IsWorded rest

namespace Yields

variable {α β γ : Type} {reader other : Reader α} {good : α → Prop} {fine : β → Prop}

/-- What is read alike on both sides stops in front of the end. -/
theorem of_alike {least : Nat} {V : α → α → Prop}
    (alike : ∀ count depth, Alike depth depth least count V reader reader) : Yields reader fun _ => True := by
  intro tokens worded value rest run
  obtain ⟨count, last, agree, -⟩ := worded.closed.agree
  rcases Alike.upTo (alike count) agree with ⟨none, -⟩ | ⟨_, _, taken, one, -, -, -, high⟩
  · rw [none] at run
    cases run
  · rw [one] at run
    cases run
    refine ⟨trivial, ?_⟩
    rw [← List.take_append_drop taken tokens] at worded
    -- Nothing being left would take what was read past the tokens that agree.
    refine worded.of_append fun empty => ?_
    have short := List.drop_eq_nil_iff.mp empty
    have long := agree.lt_length.1
    omega

theorem imp {better : α → Prop} (yields : Yields reader good)
    (holds : ∀ value, good value → better value) : Yields reader better :=
  fun tokens worded value rest run => (yields tokens worded value rest run).imp_left (holds _)

theorem pure {value : α} (holds : good value) : Yields (Pure.pure value) good := by
  rintro tokens worded _ _ ⟨⟩
  exact ⟨holds, worded⟩

theorem failure : Yields (failure : Reader α) good := by
  rintro tokens worded value rest ⟨⟩

theorem bind {next : α → Reader β} (first : Yields reader good)
    (second : ∀ value, good value → Yields (next value) fine) : Yields (reader >>= next) fine := by
  intro tokens worded value rest run
  rw [bind_run] at run
  obtain ⟨⟨between, left⟩, one, more⟩ := Option.bind_eq_some_iff.mp run
  obtain ⟨holds, still⟩ := first tokens worded between left one
  exact second between holds left still value rest more

/-- What is read first does not matter to what is made of the rest. -/
theorem seqRight {more : Reader β} (first : Yields reader good) (second : Yields more fine) :
    Yields (reader *> more) fine :=
  first.bind fun _ _ => second

theorem seqLeft {more : Reader β} (first : Yields reader good) (second : Yields more fine) :
    Yields (reader <* more) good :=
  first.bind fun _ holds => second.bind fun _ _ => pure holds

theorem map {f : α → β} (yields : Yields reader good)
    (holds : ∀ value, good value → fine (f value)) : Yields (f <$> reader) fine := by
  intro tokens worded value rest run
  rw [map_run] at run
  obtain ⟨⟨made, left⟩, one, same⟩ := Option.map_eq_some_iff.mp run
  cases same
  exact (yields tokens worded made left one).imp_left (holds made)

theorem either (first : Yields reader good) (second : Yields other good) :
    Yields (Reading.either reader other) good := by
  intro tokens worded value rest run
  rw [either_run, Option.or_eq_some_iff] at run
  rcases run with one | ⟨-, two⟩
  · exact first tokens worded value rest one
  · exact second tokens worded value rest two

theorem maybe (yields : Yields reader good) :
    Yields (Reading.maybe reader) fun value => ∀ found ∈ value, good found :=
  either (yields.map fun value holds => by simpa using holds) (pure (by simp))

theorem many (yields : Yields reader good) :
    Yields (Reading.many reader) fun values => ∀ value ∈ values, good value := by
  have within : ∀ limit, Yields (manyWithin reader limit) fun values =>
      ∀ value ∈ values, good value := by
    intro limit
    -- On the rounds that are left.
    induction limit with
    | zero => exact pure (by simp)
    | succ limit ih =>
      refine yields.maybe.bind fun first holds => ?_
      cases first with
      | none => exact pure (by simp)
      | some first =>
        exact ih.bind fun rest others => pure (List.forall_mem_cons.mpr ⟨holds first rfl, others⟩)
  intro tokens worded value rest run
  exact within tokens.length tokens worded value rest run

theorem withTaken (yields : Yields reader good) :
    Yields (Reading.withTaken reader) fun pair => good pair.1 := by
  intro tokens worded value rest run
  rw [withTaken_run] at run
  obtain ⟨⟨made, left⟩, one, same⟩ := Option.map_eq_some_iff.mp run
  cases same
  exact yields tokens worded made left one

theorem guarded (holds : Prop) [Decidable holds] :
    Yields (guard holds : Reader Unit) fun _ => True := by
  unfold guard
  split
  · exact pure trivial
  · exact failure

theorem next : Yields Reading.next fun _ => True :=
  of_alike fun _ _ => .next

/-- A test that the end of a file fails takes a token in front of the end. -/
theorem one {test : Token → Bool} (refuses : ∀ token, token.kind = .eof → test token = false) :
    Yields (Reading.one test) fun token =>
      test token = true ∧ (token.kind = .word → isName token.text.toList = true) := by
  intro tokens worded value rest run
  obtain ⟨rfl, passes⟩ := one_eq_some.mp run
  refine ⟨⟨passes, worded.words value List.mem_cons_self⟩, ?_⟩
  -- If the token were the last one, it would end the file, and not pass the test.
  obtain ⟨front, last, split, eof, -⟩ := worded.closed
  cases front with
  | nil =>
    cases split
    rw [refuses value eof] at passes
    cases passes
  | cons first front =>
    obtain ⟨rfl, behind⟩ := List.cons.inj split
    have joined : IsWorded ([value] ++ rest) := worded
    exact joined.of_append (by simp [behind])

theorem mark (text : String) : Yields (Reader.mark text) fun token => token.text = text :=
  (one fun token eof => by simp [Token.isMark, eof]).imp fun token passes => by
    simp only [Token.isMark, Bool.and_eq_true, beq_iff_eq] at passes
    exact passes.1.2

theorem literal : Yields Reader.literal fun _ => True :=
  (one fun token eof => by simp [eof]).imp fun _ _ => trivial

theorem done : Yields Reader.done fun _ => True :=
  (one fun token eof => by simp [eof]).imp fun _ _ => trivial

/-- A word is a name. -/
theorem word : Yields Reader.word fun token => isName token.text.toList = true :=
  (one fun token eof => by simp [eof]).imp fun token passes =>
    passes.2 (by simpa using passes.1)

theorem commaSeparated (yields : Yields reader good) :
    Yields (Reader.commaSeparated reader) fun values =>
      values ≠ [] ∧ ∀ value ∈ values, good value :=
  yields.bind fun _ holds =>
    (seqRight (mark _) yields).many.bind fun _ others =>
      pure ⟨List.cons_ne_nil _ _, List.forall_mem_cons.mpr ⟨holds, others⟩⟩

end Yields

/-- An import that is not given an empty name. -/
def ImportSpec.IsSpelled (spec : ImportSpec) : Prop :=
  ∀ name ∈ spec.name, name ≠ ""

theorem Yields.importSpec : Yields Reader.importSpec ImportSpec.IsSpelled := by
  have dot : Yields (Reader.mark ".") fun token => token.text ≠ "" :=
    (mark _).imp fun token same => by simp [same]
  have named : Yields Reader.word fun token => token.text ≠ "" :=
    word.imp fun token named => ne_of_isName named
  refine next.bind fun _ _ => (either named dot).maybe.bind fun name named => ?_
  refine literal.bind fun _ _ => pure ?_
  simpa [ImportSpec.IsSpelled] using named

theorem Yields.importDecl :
    Yields Reader.importDecl fun decl => ∀ spec ∈ decl.specs, spec.IsSpelled := by
  refine (mark _).bind fun _ _ => either ?_ ?_
  -- The specs stand between parentheses, or there is just one.
  · have group : Yields Reader.importGroup fun read => ∀ spec ∈ read.1, spec.IsSpelled := by
      refine (mark _).bind fun _ _ => importSpec.maybe.bind fun first named => ?_
      cases first with
      | none =>
        have nothing : Yields (do
            let close ← Reader.mark ")"
            return (([] : List ImportSpec), close.start)) fun read =>
              ∀ spec ∈ read.1, spec.IsSpelled :=
          (mark _).bind fun _ _ => pure (by simp)
        exact nothing
      | some spec =>
        exact (seqRight done importSpec).many.bind fun rest others => done.maybe.bind fun _ _ =>
          (mark _).bind fun _ _ => pure (List.forall_mem_cons.mpr ⟨named spec rfl, others⟩)
    exact group.bind fun _ named => pure named
  · exact importSpec.bind fun spec named => pure (by simpa using named)

section Files

variable {path : FilePath} {text : String}

/-- The words of a text are names. -/
theorem isName_of_mem_placeTokens {chars after : List Char} {lexemes : List Lexeme}
    (reads : FileLexes chars lexemes after) {token : Token}
    (member : token ∈ placeTokens {} lexemes) (word : token.kind = .word) :
    isName token.text.toList = true := by
  rw [placeTokens_eq] at member
  -- The last token ends the file, and any other is made of one lexeme.
  rcases List.mem_append.mp member with inside | final
  · obtain ⟨front, back, made⟩ := List.append_of_mem inside
    obtain ⟨before, lexeme, behind, rfl, -, here, -⟩ := tokensFrom_eq_append made
    cases lexeme with
    | token kind chars =>
      cases here
      have named := (reads.kind (List.mem_append_right _ List.mem_cons_self)).2 word
      rw [← String.toList_ofList (l := chars)] at named
      exact named
    | comment chars => cases here
    | blank c =>
      rw [tokenAt] at here
      split at here
      · cases here
        cases word
      · cases here
  · rw [List.mem_singleton.mp final] at word
    cases word

/-- The tokens that an item of a text is read from are worded. -/
theorem isWorded_of_mem {item : Item} {taken : List Token}
    (member : (item, taken) ∈ (allItems (placeTokens {} (lexemes text.toList).1)).1) :
    ∃ after, IsWorded (taken ++ after) ∧ Reader.item (taken ++ after) = some (item, after) := by
  obtain ⟨left, reads, -⟩ := FileLexes.all text.toList
  have closed := reads.closed {}
  obtain ⟨front, after, split, some, -, run, -⟩ := itemsTaken_mem closed member
  have words : ∀ token ∈ taken ++ after, token.kind = .word → isName token.text.toList = true :=
    fun token among => isName_of_mem_placeTokens reads (split ▸ List.mem_append_right _ among)
  exact ⟨after, ⟨words, (split ▸ closed).of_append (by simp [some]),
    (split ▸ reads.areMade {}).of_append (by simp [some])⟩, run⟩

/-- Each item of a file is read from some tokens of the text. -/
theorem exists_taken_of_mem {item : Item} (member : item ∈ (SourceFile.ofText path text).items) :
    ∃ taken, (item, taken) ∈ (allItems (placeTokens {} (lexemes text.toList).1)).1 := by
  rw [ofText_items] at member
  obtain ⟨⟨item, taken⟩, among, rfl⟩ := List.mem_map.mp member
  exact ⟨taken, among⟩

/-- What a file declares its package to be called is a name. -/
theorem isName_of_packageName {name : String}
    (declared : (SourceFile.ofText path text).packageName? = some name) :
    isName name.toList = true := by
  obtain ⟨clause, found, rfl⟩ := Option.map_eq_some_iff.mp declared
  obtain ⟨item, among, same⟩ := List.exists_of_findSome?_eq_some found
  split at same <;> cases same
  obtain ⟨taken, found⟩ := exists_taken_of_mem among
  obtain ⟨after, worded, run⟩ := isWorded_of_mem found
  obtain ⟨key, name, split, -, word, rfl⟩ := package_of_item run
  exact worded.words name (by simp [split]) word

/-- A file that declares a package gives it a name. -/
theorem packageName_ne {name : String}
    (declared : (SourceFile.ofText path text).packageName? = some name) : name ≠ "" :=
  ne_of_isName (isName_of_packageName declared)

/-- The imports of a file are spelled. -/
theorem isSpelled_of_mem_imports {spec : ImportSpec}
    (member : spec ∈ (SourceFile.ofText path text).imports) : spec.IsSpelled := by
  obtain ⟨decl, among, listed⟩ := List.mem_flatMap.mp member
  rw [importDecls_ofText] at among
  obtain ⟨taken, found⟩ := mem_declsOf.mp among
  obtain ⟨after, worded, run⟩ := isWorded_of_mem found
  obtain ⟨read, same, decls⟩ := declRead_of_item run
  -- The tokens of the item are those of an import declaration.
  have whole : Reader.importDecl (taken ++ after) = some (decl, after) :=
    importDecl_eq_some.mpr ⟨read, same, decls⟩
  exact (Yields.importDecl _ worded _ _ whole).1 spec listed

end Files

end Scaffold.Go
