import Scaffold.Go.SourceFile
import Scaffold.Proofs.Go.Tokens
import Scaffold.Proofs.Text.Edit

/-! Files that can be read whole, and the places of their tokens in the text. -/

namespace Scaffold.Go

open Reading Reader

/-- The elements of a text and the items they make up, if all of the text can be read. -/
structure ReadsAs (text : String) (lexemes : List Lexeme) (items : List (Item × List Token)) :
    Prop where
  lexes : FileLexes text.toList lexemes []
  reads : allItems (placeTokens {} lexemes) = (items, true)

/-- The import declarations among some items. -/
def declsOf (items : List (Item × List Token)) : List ImportDecl :=
  items.filterMap fun
    | (.imports decl, _) => some decl
    | _ => none

/-- The imports of some items. -/
def specsOf (items : List (Item × List Token)) : List ImportSpec :=
  (declsOf items).flatMap ImportDecl.specs

/-- The source texts of the items that are no import declarations. -/
def otherTexts (items : List (Item × List Token)) : List String :=
  items.filterMap fun
    | (.imports _, _) => none
    | (_, taken) => some (sourceOf taken)

theorem declsOf_append (first second : List (Item × List Token)) :
    declsOf (first ++ second) = declsOf first ++ declsOf second :=
  List.filterMap_append

theorem specsOf_append (first second : List (Item × List Token)) :
    specsOf (first ++ second) = specsOf first ++ specsOf second := by
  rw [specsOf, declsOf_append, List.flatMap_append]
  rfl

theorem otherTexts_append (first second : List (Item × List Token)) :
    otherTexts (first ++ second) = otherTexts first ++ otherTexts second :=
  List.filterMap_append

theorem mem_declsOf {items : List (Item × List Token)} {decl : ImportDecl} :
    decl ∈ declsOf items ↔ ∃ taken, (.imports decl, taken) ∈ items := by
  rw [declsOf, List.mem_filterMap]
  constructor
  · rintro ⟨⟨item, taken⟩, member, same⟩
    cases item with
    | imports other =>
      cases same
      exact ⟨taken, member⟩
    | _ => cases same
  · rintro ⟨taken, member⟩
    exact ⟨_, member, rfl⟩

theorem ofText_text (path : FilePath) (text : String) : (SourceFile.ofText path text).text = text :=
  rfl

/-- The items of a file are those its tokens make up. -/
theorem ofText_items (path : FilePath) (text : String) : (SourceFile.ofText path text).items =
    (allItems (placeTokens {} (lexemes text.toList).1)).1.map Prod.fst := by
  rw [SourceFile.ofText, tokens]
  simp only [itemsWithin_eq]
  rfl

/-- A file is read whole if its elements and its items are. -/
theorem ofText_broken (path : FilePath) (text : String) :
    (SourceFile.ofText path text).broken = !((lexemes text.toList).2 &&
      (allItems (placeTokens {} (lexemes text.toList).1)).2) := by
  rw [SourceFile.ofText, tokens]
  simp only [itemsWithin_eq]
  rfl

theorem importDecls_ofText (path : FilePath) (text : String) :
    (SourceFile.ofText path text).importDecls =
      declsOf (allItems (placeTokens {} (lexemes text.toList).1)).1 := by
  rw [SourceFile.importDecls, ofText_items, List.filterMap_map, declsOf]
  congr 1
  funext pair
  rcases pair with ⟨item, taken⟩
  cases item <;> rfl

/-- The tokens of a file are closed by its end. -/
theorem FileLexes.closed {text after : List Char} {lexemes : List Lexeme}
    (reads : FileLexes text lexemes after) (reach : Reach) : Closed (placeTokens reach lexemes) := by
  refine ⟨tokensFrom reach lexemes, _, placeTokens_eq reach lexemes, rfl, ?_⟩
  intro token member
  obtain ⟨front, back, made⟩ := List.append_of_mem member
  obtain ⟨before, lexeme, behind, rfl, -, here, -⟩ := tokensFrom_eq_append made
  cases lexeme with
  | token kind chars =>
    cases here
    have element : Lexeme.token kind chars ∈ before ++ .token kind chars :: behind := by simp
    exact (reads.kind element).1
  | comment chars => cases here
  | blank c =>
    rw [tokenAt] at here
    split at here
    · cases here
      exact fun is => by cases is
    · cases here

namespace ReadsAs

variable {text : String} {lexemes : List Lexeme} {items : List (Item × List Token)}

theorem lexemes_eq (reads : ReadsAs text lexemes items) :
    Go.lexemes text.toList = (lexemes, true) := by
  have whole := reads.lexes.lexemes_eq
  have none : allLexemes [] = ([], true) := rfl
  rwa [none, List.append_nil] at whole

theorem unbroken (reads : ReadsAs text lexemes items) (path : FilePath) :
    (SourceFile.ofText path text).broken = false := by
  rw [ofText_broken, reads.lexemes_eq, reads.reads]
  rfl

theorem items_eq (reads : ReadsAs text lexemes items) (path : FilePath) :
    (SourceFile.ofText path text).items = items.map Prod.fst := by
  rw [ofText_items, reads.lexemes_eq, reads.reads]

theorem importDecls (reads : ReadsAs text lexemes items) (path : FilePath) :
    (SourceFile.ofText path text).importDecls = declsOf items := by
  rw [importDecls_ofText, reads.lexemes_eq, reads.reads]

theorem imports (reads : ReadsAs text lexemes items) (path : FilePath) :
    (SourceFile.ofText path text).imports = specsOf items := by
  rw [SourceFile.imports, reads.importDecls path, specsOf]

theorem closed (reads : ReadsAs text lexemes items) : Closed (placeTokens {} lexemes) :=
  reads.lexes.closed {}

theorem chars (reads : ReadsAs text lexemes items) : text.toList = lexemeChars lexemes := by
  have whole := reads.lexes.chars
  rwa [List.append_nil] at whole

end ReadsAs

/-- Only the empty text has all of its elements none. -/
private theorem eq_nil_of_allLexemes {text : List Char} (none : allLexemes text = ([], true)) :
    text = [] := by
  cases text with
  | nil => rfl
  | cons c rest =>
    cases read : nextLexeme c rest with
    | none =>
      rw [allLexemes, List.length_cons, lexemesWithin, read] at none
      cases none
    | some pair =>
      rw [allLexemes_cons read] at none
      cases none

/-- A file that is not broken is read as its elements and items. -/
theorem readsAs_of_unbroken {path : FilePath} {text : String}
    (unbroken : (SourceFile.ofText path text).broken = false) :
    ∃ lexemes items, ReadsAs text lexemes items := by
  rw [ofText_broken, Bool.not_eq_false', Bool.and_eq_true] at unbroken
  obtain ⟨after, reads, none⟩ := FileLexes.all text.toList
  rw [unbroken.1] at none
  obtain rfl := eq_nil_of_allLexemes none
  exact ⟨_, _, reads, Prod.ext rfl unbroken.2⟩

/-- Where an item that is an import declaration comes from. -/
theorem declRead_of_mem {tokens : List Token} {decl : ImportDecl} (closed : Closed tokens)
    (member : decl ∈ declsOf (allItems tokens).1) :
    ∃ front read after, tokens = front ++ (read ++ after) ∧ DeclRead read decl := by
  obtain ⟨taken, member⟩ := mem_declsOf.mp member
  obtain ⟨front, after, split, -, -, run, -⟩ := itemsTaken_mem closed member
  obtain ⟨read, same, reads⟩ := declRead_of_item run
  obtain rfl := List.append_cancel_right same
  exact ⟨front, taken, after, split, reads⟩

/-- Tokens stand one behind the other, none before the reach they are placed from. -/
theorem placeTokens_ascending (reach : Reach) (lexemes : List Lexeme) :
    (placeTokens reach lexemes).Pairwise (fun first second => first.stop ≤ second.start) ∧
      ∀ token ∈ placeTokens reach lexemes, reach.offset ≤ token.start := by
  induction lexemes generalizing reach with
  | nil => simp [placeTokens, Reach.token]
  | cons lexeme rest ih =>
    obtain ⟨ordered, beyond⟩ := ih (tokenAt reach lexeme).2
    rw [tokenAt_offset] at beyond
    have further : ∀ token ∈ placeTokens (tokenAt reach lexeme).2 rest,
        reach.offset ≤ token.start := by
      intro token member
      have := beyond token member
      omega
    rw [placeTokens_cons]
    rcases tokenAt_tokens reach lexeme with none | ⟨token, one, start, chars⟩
    · rw [none]
      exact ⟨ordered, further⟩
    · rw [one, List.singleton_append]
      refine ⟨List.pairwise_cons.mpr ⟨fun other member => ?_, ordered⟩, ?_⟩
      · rw [Token.stop, start, chars, String.toList_ofList]
        exact beyond other member
      · intro other member
        rcases List.mem_cons.mp member with rfl | later
        · omega
        · exact further other later

/-- The text can be cut before and behind every token. -/
theorem isCut_of_mem {text after : List Char} {lexemes : List Lexeme} {token : Token}
    (reads : FileLexes text lexemes after) (member : token ∈ placeTokens {} lexemes) :
    IsCut text token.start ∧ IsCut text token.stop := by
  rw [reads.chars]
  rw [placeTokens_eq] at member
  have offset : ∀ before : List Lexeme,
      (reachBehind {} before).offset = byteLength (lexemeChars before) := by
    intro before
    rw [reachBehind_offset]
    exact Nat.zero_add _
  rcases List.mem_append.mp member with inside | final
  · obtain ⟨front, back, made⟩ := List.append_of_mem inside
    obtain ⟨before, lexeme, behind, rfl, -, here, -⟩ := tokensFrom_eq_append made
    rcases tokenAt_tokens (reachBehind {} before) lexeme with none | ⟨other, one, start, chars⟩
    · rw [none] at here
      cases here
    · rw [here] at one
      obtain rfl := List.singleton_inj.mp one
      rw [offset] at start
      rw [Token.stop, start, chars, String.toList_ofList, lexemeChars_append, lexemeChars_cons,
        ← byteLength_append]
      refine ⟨⟨lexemeChars before, _, List.append_assoc _ _ _, rfl⟩, ?_⟩
      exact ⟨lexemeChars before ++ lexeme.chars, lexemeChars behind ++ after, by simp, rfl⟩
  · obtain rfl := List.mem_singleton.mp final
    have start : ((reachBehind {} lexemes).token .eof []).start = byteLength (lexemeChars lexemes) :=
      offset lexemes
    rw [Token.stop, start]
    exact ⟨isCut_append _ _, isCut_append _ _⟩

end Scaffold.Go
