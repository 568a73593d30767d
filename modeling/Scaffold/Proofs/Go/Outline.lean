import Scaffold.Proofs.Go.File

/-! The outline of a file: its nodes follow one another, and its items are among them. -/

namespace Scaffold.Go

open Reader Reading

section Stretches

/-- Stretches that follow one another, none of them before an offset. -/
def Follow (low : Nat) : List (Nat × Nat) → Prop
  | [] => True
  | stretch :: rest => low ≤ stretch.1 ∧ stretch.1 ≤ stretch.2 ∧ Follow stretch.2 rest

/-- The offset behind the last of some stretches. -/
def behindAll (low : Nat) (stretches : List (Nat × Nat)) : Nat :=
  stretches.foldl (fun _ stretch => stretch.2) low

variable {low : Nat} {first second : List (Nat × Nat)}

/-- The second of two lists has to begin where the first one ends. -/
theorem follow_append :
    Follow low (first ++ second) ↔ Follow low first ∧ Follow (behindAll low first) second := by
  -- Each stretch of the first list moves the offset on.
  induction first generalizing low with
  | nil => simp [Follow, behindAll]
  | cons stretch rest ih =>
    show _ ∧ _ ∧ Follow stretch.2 (rest ++ second) ↔ (_ ∧ _ ∧ Follow stretch.2 rest) ∧
      Follow (behindAll stretch.2 rest) second
    rw [ih]
    tauto

theorem behindAll_append : behindAll low (first ++ second) = behindAll (behindAll low first) second :=
  List.foldl_append

/-- What follows one another leads forward. -/
theorem Follow.le (follow : Follow low first) : low ≤ behindAll low first := by
  induction first generalizing low with
  | nil => exact Nat.le_refl low
  | cons stretch rest ih =>
    obtain ⟨begins, forward, later⟩ := follow
    exact Nat.le_trans (Nat.le_trans begins forward) (ih later)

/-- The empty stretch at the end may move on. -/
theorem Follow.move {place later : Nat} (follow : Follow low (first ++ [(place, place)]))
    (forward : place ≤ later) : Follow low (first ++ [(later, later)]) := by
  obtain ⟨before, begins, -, -⟩ := follow_append.mp follow
  exact follow_append.mpr ⟨before, Nat.le_trans begins forward, Nat.le_refl later, trivial⟩

/-- No stretch begins before the one in front of it ends. -/
theorem Follow.pairwise (follow : Follow low first) :
    first.Pairwise (fun one other => one.2 ≤ other.1) ∧ ∀ one ∈ first, low ≤ one.1 := by
  induction first generalizing low with
  | nil => exact ⟨List.Pairwise.nil, by simp⟩
  | cons stretch rest ih =>
    obtain ⟨begins, forward, later⟩ := follow
    obtain ⟨ordered, above⟩ := ih later
    refine ⟨List.pairwise_cons.mpr ⟨above, ordered⟩, List.forall_mem_cons.mpr ⟨begins, ?_⟩⟩
    intro one member
    have := above one member
    omega

end Stretches

section Tokens

/-- The stretch that a comment covers. -/
def Comment.stretch (comment : Comment) : Nat × Nat :=
  (comment.start, comment.stop)

/-- The stretches that a token and the comments in front of it cover. -/
def Token.stretches (token : Token) : List (Nat × Nat) :=
  token.comments.map Comment.stretch ++ [(token.start, token.stop)]

/-- The stretch that a node covers. -/
def Node.stretch (node : Node) : Nat × Nat :=
  (node.start, node.stop)

theorem stretches_token (reach : Reach) (kind : TokenKind) (text : List Char) :
    (reach.token kind text).stretches = reach.comments.map Comment.stretch ++
      [(reach.offset, reach.offset + byteLength text)] := by
  rw [Token.stretches, Token.stop, Reach.token, String.toList_ofList]

/-- Tokens and comments are placed one behind the other. -/
theorem follow_placeTokens {low : Nat} (lexemes : List Lexeme) {reach : Reach}
    (reached : Follow low (reach.comments.map Comment.stretch ++ [(reach.offset, reach.offset)])) :
    Follow low ((placeTokens reach lexemes).flatMap Token.stretches) := by
  -- What holds of the comments before the next token is kept by every element.
  induction lexemes generalizing reach low with
  | nil =>
    rw [placeTokens, List.flatMap_singleton, stretches_token]
    exact reached
  | cons lexeme rest ih =>
    obtain ⟨before, begins, -, -⟩ := follow_append.mp reached
    -- A token takes the comments with it and leaves none for the next one.
    have token : ∀ (kind : TokenKind) (text : List Char), Follow low
        ((reach.token kind text :: placeTokens (reach.behindToken kind text) rest).flatMap
          Token.stretches) := by
      intro kind text
      rw [List.flatMap_cons, stretches_token, follow_append, follow_append, behindAll_append]
      refine ⟨⟨before, begins, Nat.le_add_right _ _, trivial⟩, ih ?_⟩
      exact ⟨Nat.le_refl _, Nat.le_refl _, trivial⟩
    cases lexeme with
    | token kind text => exact token kind text
    | comment text =>
      rw [placeTokens]
      apply ih
      rw [List.map_append, follow_append, follow_append, behindAll_append]
      exact ⟨⟨before, begins, Nat.le_add_right _ _, trivial⟩, Nat.le_refl _, Nat.le_refl _, trivial⟩
    | blank c =>
      rw [placeTokens]
      split
      · exact token .terminator [c]
      · exact ih (reached.move (Nat.le_add_right _ _))

theorem behindAll_stretches (low : Nat) (token : Token) :
    behindAll low token.stretches = token.stop := by
  rw [Token.stretches, behindAll_append]
  rfl

/-- Behind some tokens is where the last of them ends. -/
theorem behindAll_tokens (low : Nat) (first : Token) (more : List Token) :
    behindAll low ((first :: more).flatMap Token.stretches) = stopOf (first :: more) := by
  induction more generalizing low first with
  | nil =>
    rw [List.flatMap_singleton, behindAll_stretches]
    rfl
  | cons second more ih =>
    rw [List.flatMap_cons, behindAll_append, ih, stopOf, stopOf, List.getLast?_cons_cons]

end Tokens

section Nodes

theorem stretch_commentNodes (token : Token) :
    token.commentNodes.map Node.stretch = token.comments.map Comment.stretch := by
  rw [Token.commentNodes, List.map_map]
  rfl

/-- Behind a token that is not the end of a file there are more. -/
theorem Closed.tail {first : Token} {rest : List Token} (closed : Closed (first :: rest))
    (more : first.kind ≠ .eof) : Closed rest := by
  have behind : Closed ([first] ++ rest) := closed
  apply behind.of_append
  rintro rfl
  -- The last token is the end of the file.
  obtain ⟨front, last, split, eof, -⟩ := closed
  cases front with
  | nil => exact more (by cases split; exact eof)
  | cons head tail => simp at split

/-- An item takes tokens from the first one on. -/
theorem Closed.withTaken_item {first : Token} {rest after : List Token} {read : Item}
    (closed : Closed (first :: rest)) (more : first.kind ≠ .eof)
    (run : item (first :: rest) = some (read, after)) :
    ∃ others, rest = others ++ after ∧ Closed after ∧
      withTaken item (first :: rest) = some ((read, first :: others), after) := by
  obtain ⟨taken, split, takes, behind⟩ := closed.of_item more run
  cases taken with
  | nil => exact absurd rfl takes
  | cons head others =>
    have same := List.cons.inj split
    refine ⟨others, same.2, behind, ?_⟩
    -- What was taken is what stands in front of the rest.
    have own : (first :: rest).take ((first :: rest).length - after.length) = head :: others := by
      rw [split, List.length_append, Nat.add_sub_cancel, List.take_left]
    rw [withTaken_run, run, Option.map_some, own, same.1]

/-- The nodes of tokens follow one another as the tokens do. -/
theorem follow_nodesWithin {low limit : Nat} {tokens : List Token} (closed : Closed tokens)
    (follow : Follow low (tokens.flatMap Token.stretches)) :
    Follow low ((nodesWithin limit tokens).map Node.stretch) := by
  induction limit generalizing low tokens with
  | zero => trivial
  | succ limit ih =>
    cases tokens with
    | nil => trivial
    | cons first rest =>
      rw [List.flatMap_cons, Token.stretches, List.append_assoc, List.singleton_append,
        follow_append] at follow
      obtain ⟨before, begins, forward, later⟩ := follow
      -- The comments come first in any case.
      rw [nodesWithin, List.map_append, stretch_commentNodes, follow_append]
      refine ⟨before, ?_⟩
      by_cases eof : first.kind = .eof
      · simp [eof, Follow]
      rw [if_neg (by simpa using eof)]
      split
      · -- The end of a statement is a node of one token.
        exact ⟨begins, forward, ih (closed.tail eof) later⟩
      · cases run : item (first :: rest) with
        | none =>
          rw [withTaken_run, run]
          trivial
        | some pair =>
          -- An item covers its tokens from the first to the last.
          obtain ⟨others, same, behind, taken⟩ := closed.withTaken_item eof run
          subst same
          rw [List.flatMap_append, follow_append] at later
          obtain ⟨inner, later⟩ := later
          have reaches : behindAll first.stop (others.flatMap Token.stretches) =
              stopOf (first :: others) := by
            rw [← behindAll_tokens low first others, List.flatMap_cons, behindAll_append,
              behindAll_stretches]
          have high := inner.le
          rw [reaches] at later high
          rw [taken]
          exact ⟨begins, Nat.le_trans forward high, ih behind later⟩

/-- The item of a node, with the stretch that the node covers. -/
def Node.item? (node : Node) : Option (Item × Nat × Nat) :=
  match node.kind with
  | .item read => some (read, node.stretch)
  | _ => none

/-- The stretch that the tokens of an item cover. -/
def stretchOf (taken : List Token) : Nat × Nat :=
  ((taken.head?.map Token.start).getD 0, stopOf taken)

theorem item?_commentNodes (token : Token) :
    token.commentNodes.filterMap Node.item? = [] := by
  rw [Token.commentNodes, List.filterMap_map]
  exact List.filterMap_eq_nil_iff.mpr fun _ _ => rfl

/-- The items among the nodes of a file that can be read whole are all its items. -/
theorem item?_nodesWithin {tokens : List Token} (closed : Closed tokens)
    (whole : (allItems tokens).2 = true) {limit : Nat} (enough : tokens.length ≤ limit) :
    (nodesWithin limit tokens).filterMap Node.item? =
      (allItems tokens).1.map fun pair => (pair.1, stretchOf pair.2) := by
  -- Each step takes at least one token, so the limit is never met.
  induction limit generalizing tokens with
  | zero => exact absurd (List.length_eq_zero_iff.mp (Nat.le_zero.mp enough)) closed.ne_nil
  | succ limit ih =>
    cases tokens with
    | nil => exact absurd rfl closed.ne_nil
    | cons first rest =>
      rw [List.length_cons] at enough
      rw [nodesWithin, List.filterMap_append, item?_commentNodes, List.nil_append]
      by_cases eof : first.kind = .eof
      · -- Nothing stands behind the end of the file.
        obtain rfl : rest = [] := by
          by_contra more
          have inside : Closed ([first] ++ rest) := closed
          exact inside.inside_of_append more first (by simp) eof
        rw [if_pos (by simpa using eof), allItems_eof eof]
        rfl
      rw [if_neg (by simpa using eof)]
      by_cases ends : first.kind = .terminator
      · rw [if_pos (by simpa using ends)]
        rw [allItems_terminator ends (closed.tail eof)] at whole ⊢
        exact ih (closed.tail eof) whole (by omega)
      rw [if_neg (by simpa using ends)]
      have start : behindEnds (first :: rest) = first :: rest := by simp [behindEnds, ends]
      cases run : item (first :: rest) with
      | none =>
        -- A file without a breach has an item here.
        have notEof : (first.kind == .eof) = false := by simpa using eof
        rw [allItems, List.length_cons, itemsTaken, start] at whole
        simp [withTaken_run, run, notEof] at whole
      | some pair =>
        obtain ⟨read, after⟩ := pair
        obtain ⟨others, split, behind, taken⟩ := closed.withTaken_item eof run
        have own : first :: rest = (first :: others) ++ after := congrArg (first :: ·) split
        have ended : endsItem after = true := by
          by_contra endless
          rw [allItems, itemsTaken_item start eof own run, if_neg endless] at whole
          cases whole
        have one : ItemAt (first :: rest) read (first :: others) after :=
          ⟨own, by simp, run, ended⟩
        rw [one.allItems ends eof behind] at whole ⊢
        have shorter : after.length ≤ limit := by
          rw [split, List.length_append] at enough
          omega
        rw [taken]
        exact congrArg (_ :: ·) (ih behind whole shorter)

end Nodes

end Scaffold.Go
