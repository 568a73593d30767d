import Scaffold.Proofs.Go.Outline

/-! The declaration around a place: the search among the nodes of a file finds it exactly. -/

namespace Scaffold.Go

open Reader Reading

/-- A search finds the one node that covers a stretch of bytes, if there is one. -/
theorem nodeAround?_eq_some_iff {low start stop : Nat} {nodes : List Node}
    (ordered : Follow low (nodes.map Node.stretch)) (forward : start ≤ stop) {node : Node} :
    nodeAround? nodes start stop = some node ↔
      node ∈ nodes ∧ node.start ≤ start ∧ start < node.stop ∧ stop ≤ node.stop := by
  rw [nodeAround?, if_neg (by omega)]
  constructor
  · -- What is found reaches far enough by the search, and begins early enough by the test.
    intro found
    split at found
    · cases found
    · rename_i other reaches
      split at found
      · rename_i begins
        cases found
        have covers := List.find?_some reaches
        simp only [Bool.and_eq_true, decide_eq_true_eq] at covers
        exact ⟨List.mem_of_find?_eq_some reaches, begins, covers.2, covers.1⟩
      · cases found
  · -- A node in front of the covering one ends before the stretch begins.
    rintro ⟨member, begins, inside, reaches⟩
    obtain ⟨front, back, rfl⟩ := List.append_of_mem member
    have first : (front ++ node :: back).find? (fun node => stop ≤ node.stop && start < node.stop) =
        some node := by
      rw [List.find?_append, Option.or_eq_some_iff]
      right
      constructor
      · rw [List.find?_eq_none]
        intro earlier among
        have apart := (List.pairwise_map.mp ordered.pairwise.1)
        have ends : earlier.stop ≤ node.start :=
          (List.pairwise_append.mp apart).2.2 earlier among node List.mem_cons_self
        simp only [Bool.and_eq_true, decide_eq_true_eq, not_and]
        omega
      · rw [List.find?_cons_of_pos]
        simpa using ⟨reaches, inside⟩
    rw [first]
    exact if_pos begins

/-- Of two readers the second one only takes what stands behind the first. -/
theorem seqLeft_eq_some {α β : Type} {reader : Reader α} {more : Reader β} {xs rest : List Token}
    {a : α} (run : (reader <* more) xs = some (a, rest)) : ∃ left, reader xs = some (a, left) := by
  have unfolded : (reader <* more) xs = (reader xs).bind fun pair =>
      (more pair.2).bind fun other => some (pair.1, other.2) := rfl
  rw [unfolded, Option.bind_eq_some_iff] at run
  obtain ⟨⟨found, left⟩, first, second⟩ := run
  obtain ⟨other, -, same⟩ := Option.bind_eq_some_iff.mp second
  cases same
  exact ⟨left, first⟩

/-- A function declaration covers the tokens that it is read from. -/
theorem stretch_of_funcDecl {xs rest : List Token} {decl : FuncDecl}
    (run : funcDecl xs = some (decl, rest)) :
    xs.head?.map Token.start = some decl.start ∧
      decl.stop = stopOf (xs.take (xs.length - rest.length)) := by
  rw [funcDecl, bind_run, withTaken_run, Option.bind_eq_some_iff] at run
  obtain ⟨taken, whole, finish⟩ := run
  obtain ⟨⟨read, left⟩, parts, rfl⟩ := Option.map_eq_some_iff.mp whole
  cases finish
  refine ⟨?_, rfl⟩
  -- With a receiver or without one, the first token is the keyword.
  obtain ⟨left, parts⟩ := seqLeft_eq_some parts
  rw [either_run, Option.or_eq_some_iff] at parts
  rcases parts with plain | ⟨-, method⟩
  · simp only [bind_run, pure_run, Option.bind_eq_some_iff] at plain
    obtain ⟨⟨first, more⟩, key, ⟨name, -, ⟨params, -, ⟨types, -, made⟩⟩⟩⟩ := plain
    cases made
    obtain ⟨rfl, -⟩ := one_eq_some.mp key
    rfl
  · simp only [bind_run, pure_run, Option.bind_eq_some_iff] at method
    obtain ⟨⟨first, more⟩, key, ⟨receiver, -, ⟨name, -, ⟨types, -, made⟩⟩⟩⟩ := method
    cases made
    obtain ⟨rfl, -⟩ := one_eq_some.mp key
    rfl

/-- A declared function covers the tokens of its item. -/
theorem stretchOf_func {tokens taken : List Token} {decl : FuncDecl} (closed : Closed tokens)
    (member : (.func decl, taken) ∈ (allItems tokens).1) :
    stretchOf taken = (decl.start, decl.stop) := by
  obtain ⟨front, after, -, takes, -, run, -⟩ := itemsTaken_mem closed member
  obtain ⟨begins, ends⟩ := stretch_of_funcDecl (funcDecl_of_item run)
  rw [List.head?_append_of_ne_nil _ takes] at begins
  rw [List.length_append, Nat.add_sub_cancel, List.take_left] at ends
  rw [stretchOf, begins, ends]
  rfl

/-- Whether a declaration covers a stretch of bytes; the byte right behind it is not its own. -/
def FuncDecl.Covers (decl : FuncDecl) (start stop : Nat) : Prop :=
  decl.start ≤ start ∧ start < decl.stop ∧ stop ≤ decl.stop

section File

variable {path : FilePath} {text : String}

theorem ReadsAs.outline {lexemes : List Lexeme} {items : List (Item × List Token)}
    (reads : ReadsAs text lexemes items) :
    outline text = nodesWithin (placeTokens {} lexemes).length (placeTokens {} lexemes) := by
  rw [Go.outline, tokens, reads.lexemes_eq]

/-- The nodes of a file follow one another. -/
theorem follow_outline (unbroken : (SourceFile.ofText path text).broken = false) :
    Follow 0 ((outline text).map Node.stretch) := by
  obtain ⟨lexemes, items, reads⟩ := readsAs_of_unbroken unbroken
  rw [reads.outline]
  exact follow_nodesWithin reads.closed
    (follow_placeTokens lexemes ⟨Nat.le_refl 0, Nat.le_refl 0, trivial⟩)

/-- The functions among the nodes of a file are those it declares, each where it is declared. -/
theorem mem_outline_iff (unbroken : (SourceFile.ofText path text).broken = false)
    {decl : FuncDecl} {start stop : Nat} : ⟨.item (.func decl), start, stop⟩ ∈ outline text ↔
      decl ∈ (SourceFile.ofText path text).funcDecls ∧ start = decl.start ∧ stop = decl.stop := by
  obtain ⟨lexemes, items, reads⟩ := readsAs_of_unbroken unbroken
  have whole : (allItems (placeTokens {} lexemes)).2 = true := by rw [reads.reads]
  have among := item?_nodesWithin reads.closed whole (Nat.le_refl _)
  rw [← reads.outline, reads.reads] at among
  have place : ∀ taken, (.func decl, taken) ∈ items → stretchOf taken = (decl.start, decl.stop) := by
    intro taken member
    rw [← show (allItems (placeTokens {} lexemes)).1 = items by rw [reads.reads]] at member
    exact stretchOf_func reads.closed member
  have declared : decl ∈ (SourceFile.ofText path text).funcDecls ↔
      ∃ taken, (.func decl, taken) ∈ items := by
    rw [SourceFile.funcDecls, reads.items_eq path, List.filterMap_map, List.mem_filterMap]
    constructor
    · rintro ⟨⟨read, taken⟩, member, same⟩
      cases read with
      | func other => exact ⟨taken, by cases same; exact member⟩
      | _ => cases same
    · rintro ⟨taken, member⟩
      exact ⟨_, member, rfl⟩
  -- A node with an item is told by the item and the stretch it covers.
  have told : ⟨.item (.func decl), start, stop⟩ ∈ outline text ↔
      (.func decl, start, stop) ∈ (outline text).filterMap Node.item? := by
    rw [List.mem_filterMap]
    constructor
    · exact fun member => ⟨_, member, rfl⟩
    · rintro ⟨⟨kind, _, _⟩, member, same⟩
      cases kind with
      | item read => cases same; exact member
      | _ => cases same
  rw [told, among, List.mem_map, declared]
  constructor
  · rintro ⟨⟨read, taken⟩, member, same⟩
    obtain ⟨rfl, covers⟩ := Prod.mk.inj same
    rw [place taken member] at covers
    obtain ⟨begins, ends⟩ := Prod.mk.inj covers
    exact ⟨⟨taken, member⟩, begins.symm, ends.symm⟩
  · rintro ⟨⟨taken, member⟩, rfl, rfl⟩
    exact ⟨_, member, by rw [place taken member]⟩

/-- The declaration found around a stretch of bytes is the one that covers it. -/
theorem enclosing?_eq_some_iff (unbroken : (SourceFile.ofText path text).broken = false)
    {start stop : Nat} (forward : start ≤ stop) {decl : FuncDecl} :
    (SourceFile.ofText path text).enclosing? start stop = some decl ↔
      decl ∈ (SourceFile.ofText path text).funcDecls ∧ decl.Covers start stop := by
  have search : ∀ {node : Node}, nodeAround? (outline text) start stop = some node ↔
      node ∈ outline text ∧ node.start ≤ start ∧ start < node.stop ∧ stop ≤ node.stop :=
    nodeAround?_eq_some_iff (follow_outline unbroken) forward
  constructor
  · -- What is found is the node of a function, which stands where the function is declared.
    intro found
    rw [SourceFile.enclosing?] at found
    split at found
    · rename_i other begins ends around
      cases found
      obtain ⟨member, covers⟩ := search.mp around
      obtain ⟨declared, rfl, rfl⟩ := (mem_outline_iff unbroken).mp member
      exact ⟨declared, covers⟩
    · cases found
  · rintro ⟨declared, covers⟩
    have member := (mem_outline_iff unbroken).mpr ⟨declared, rfl, rfl⟩
    have around := search.mpr ⟨member, covers⟩
    rw [SourceFile.enclosing?, ofText_text, around]

/-- No two declarations of a file cover one place. -/
theorem eq_of_covers (unbroken : (SourceFile.ofText path text).broken = false)
    {decl other : FuncDecl} (declared : decl ∈ (SourceFile.ofText path text).funcDecls)
    (alsoDeclared : other ∈ (SourceFile.ofText path text).funcDecls) {start stop : Nat}
    (covers : decl.Covers start stop) (alsoCovers : other.Covers start stop) : decl = other := by
  -- Both are what is found around the empty stretch at the place.
  have found := (enclosing?_eq_some_iff unbroken (Nat.le_refl start)).mpr
    ⟨declared, covers.1, covers.2.1, Nat.le_of_lt covers.2.1⟩
  have alsoFound := (enclosing?_eq_some_iff unbroken (Nat.le_refl start)).mpr
    ⟨alsoDeclared, alsoCovers.1, alsoCovers.2.1, Nat.le_of_lt alsoCovers.2.1⟩
  exact Option.some.inj (found.symm.trans alsoFound)

end File

end Scaffold.Go
