import Scaffold.Go.Phrase
import Scaffold.Proofs.Go.TypeReader

/-! Phrases are matched by what tokens look like: the limit on steps inside one another suffices. -/

namespace Scaffold.Go

open Reading Reader

/-- Whether a named phrase takes a token whenever it matches. -/
def Rule.takes : Rule → Bool
  | .statements => false
  | _ => true

/-- A bound on the steps that a named phrase goes down before it takes a token. -/
def Rule.depth : Rule → Nat
  | .expression _ => 21
  | .operand _ => 19
  | .value _ => 14
  | .element => 26
  | .part => 24
  | .expressions _ => 23
  | .simple _ => 25
  | .statements => 46
  | .statement => 41
  | .condition => 29
  | .iteration => 31
  | .iterated => 25
  | .suffix | .constants | .vars | .types => 8
  | .clause | .communication | .constantSpec | .varSpec => 5
  | _ => 3

namespace Phrase

mutual

/-- Whether a phrase takes a token whenever it matches. -/
def takes : Phrase → Bool
  | .ahead _ => false
  | .rule name => name.takes
  | .all phrases => someTakes phrases
  | .first phrases => eachTakes phrases
  | .maybe _ => false
  | .many _ => false
  | _ => true

/-- Whether some phrase of a list takes a token. -/
def someTakes : List Phrase → Bool
  | [] => false
  | phrase :: rest => takes phrase || someTakes rest

/-- Whether every phrase of a list takes a token. -/
def eachTakes : List Phrase → Bool
  | [] => true
  | phrase :: rest => takes phrase && eachTakes rest

end

mutual

/-- The steps that a phrase goes down before it takes a token. -/
def depth : Phrase → Nat
  | .type => 2
  | .typeParams => 2
  | .rule name => name.depth
  | .all phrases => depthAll phrases
  | .first phrases => depthFirst phrases
  | .maybe phrase => depth phrase + 1
  | .many phrase => depth phrase + 1
  | _ => 1

/-- The steps down in phrases that follow each other; a token taken starts the count afresh. -/
def depthAll : List Phrase → Nat
  | [] => 1
  | phrase :: rest => max (depth phrase) (if takes phrase then 0 else depthAll rest) + 1

/-- The steps down in phrases of which one is chosen. -/
def depthFirst : List Phrase → Nat
  | [] => 1
  | phrase :: rest => max (depth phrase) (depthFirst rest) + 1

end

mutual

/-- Whether no repeated phrase matches nothing, and the steps stay below the limit for one token. -/
def isBounded : Phrase → Bool
  | .mark text => text != "import" && text != "package"
  | .oneOf texts => !texts.contains "import" && !texts.contains "package"
  | .all phrases => areBounded phrases
  | .first phrases => chooseBounded phrases
  | .maybe phrase => isBounded phrase
  | .many phrase => isBounded phrase && takes phrase && depth phrase < 100
  | _ => true

def areBounded : List Phrase → Bool
  | [] => true
  | phrase :: rest => isBounded phrase && areBounded rest && depthAll rest ≤ 100

def chooseBounded : List Phrase → Bool
  | [] => true
  | phrase :: rest => isBounded phrase && chooseBounded rest

end

mutual

/-- How many brackets are open behind a phrase matched where `before` are open; none if the phrase
may close one where none is open, or if the number depends on what is chosen. -/
def shift : Phrase → Nat → Option Nat
  | .mark text, before =>
    if ["(", "[", "\x7b"].contains text then some (before + 1)
    else if [")", "]", "\x7d"].contains text then if before = 0 then none else some (before - 1)
    else some before
  | .oneOf texts, before => if texts.all isPlainMark then some before else none
  | .all phrases, before => shiftAll phrases before
  | .first phrases, before => if areEven phrases before then some before else none
  | .maybe phrase, before | .many phrase, before =>
    if shift phrase before = some before then some before else none
  | _, before => some before

/-- How many brackets are open behind phrases that follow each other. -/
def shiftAll : List Phrase → Nat → Option Nat
  | [], before => some before
  | phrase :: rest, before =>
    match shift phrase before with
    | some between => shiftAll rest between
    | none => none

/-- Whether each phrase closes the brackets that it opens. -/
def areEven : List Phrase → Nat → Bool
  | [], _ => true
  | phrase :: rest, before => shift phrase before = some before && areEven rest before

end

end Phrase

/-- Every named phrase keeps the bounds that are claimed for it. -/
theorem Rule.phrase_bounded (name : Rule) :
    name.phrase.isBounded = true ∧ name.phrase.depth < name.depth ∧
      (name.takes = true → name.phrase.takes = true) := by
  -- There are finitely many rules.
  rcases name with ⟨_ | _⟩ | ⟨_ | _⟩ | ⟨_ | _⟩ | _ | _ | _ | _ | _ | _ | ⟨_ | _⟩ | ⟨_ | _⟩ | _ | _ |
    _ | _ | _ | _ | _ | _ | _ | _ | _ | _ | _ | _ <;> decide

/-- Every named phrase closes the brackets that it opens. -/
theorem Rule.shift_phrase (name : Rule) : name.phrase.shift 0 = some 0 := by
  rcases name with ⟨_ | _⟩ | ⟨_ | _⟩ | ⟨_ | _⟩ | _ | _ | _ | _ | _ | _ | ⟨_ | _⟩ | ⟨_ | _⟩ | _ | _ |
    _ | _ | _ | _ | _ | _ | _ | _ | _ | _ | _ | _ <;> decide

namespace Phrase

/-- The number of tokens that a match takes at least. -/
def least (phrase : Phrase) : Nat :=
  if phrase.takes then 1 else 0

theorem depth_pos (phrase : Phrase) : 0 < phrase.depth := by
  cases phrase with
  | rule name => cases name <;> simp [depth, Rule.depth]
  | all phrases => cases phrases <;> simp [depth, depthAll]
  | first phrases => cases phrases <;> simp [depth, depthFirst]
  | _ => simp [depth]

/-- A phrase that takes something only if another does takes no more at least than that one. -/
theorem least_le {phrase other : Phrase} (only : phrase.takes = true → other.takes = true) :
    phrase.least ≤ other.least := by
  unfold least
  split <;> rename_i taking
  · exact Nat.le_of_eq (if_pos (only taking)).symm
  · exact Nat.zero_le _

theorem least_of_takes {phrase : Phrase} (takes : phrase.takes = true) : phrase.least = 1 :=
  if_pos takes

end Phrase

/-- A mark moves between brackets as it shifts them. -/
theorem mark_alike {text : String} (bounded : (Phrase.mark text).isBounded = true)
    {before behind : Nat} (moves : (Phrase.mark text).shift before = some behind)
    (depth count : Nat) :
    Alike (depth + before) (depth + behind) 1 count Token.Near (mark text) (mark text) := by
  simp only [Phrase.isBounded, Bool.and_eq_true, bne_iff_ne] at bounded
  simp only [Phrase.shift] at moves
  split at moves <;> rename_i opens
  · cases moves
    exact .opening (by simpa using opens)
  split at moves <;> rename_i closes
  · split at moves <;> cases moves
    obtain ⟨fewer, rfl⟩ : ∃ fewer, before = fewer + 1 := ⟨before - 1, by omega⟩
    exact .closing (by simpa using closes)
  · cases moves
    simp only [List.contains_cons, List.contains_nil, Bool.or_false, Bool.or_eq_true, beq_iff_eq,
      not_or] at opens closes
    refine .mark ?_
    simp [isPlainMark, bounded, opens, closes]

/--
The limit on the steps inside one another never decides whether a phrase matches.

Each token pays for a hundred steps, and no phrase goes down further before it takes the next one.
-/
theorem phraseWithin_alike {count limit limit' before behind : Nat} {phrase : Phrase} (depth : Nat)
    (bounded : phrase.isBounded = true) (moves : phrase.shift before = some behind)
    (enough : 100 * count + phrase.depth ≤ limit) (enough' : 100 * count + phrase.depth ≤ limit') :
    Alike (depth + before) (depth + behind) phrase.least count Whatever
      (phraseWithin limit phrase) (phraseWithin limit' phrase) := by
  -- Every step down uses up one of the steps allowed, in either reader.
  induction limit generalizing count limit' before behind depth phrase with
  | zero =>
    have := phrase.depth_pos
    omega
  | succ limit ih =>
    have positive := phrase.depth_pos
    obtain ⟨limit', rfl⟩ : ∃ less, limit' = less + 1 := ⟨limit' - 1, by omega⟩
    have deeper : ∀ {before behind : Nat} {phrase : Phrase}, phrase.isBounded = true →
        phrase.shift before = some behind → 100 * count + phrase.depth ≤ min limit limit' →
        Alike (depth + before) (depth + behind) phrase.least count Whatever
          (phraseWithin limit phrase) (phraseWithin limit' phrase) :=
      fun bounded moves enough => ih depth bounded moves (by omega) (by omega)
    -- Behind a token the length of an array may be any expression.
    have expression : ∀ less < count, ∀ {depth : Nat}, Alike depth depth 1 less Whatever
        (phraseWithin limit (.rule (.expression true)))
        (phraseWithin limit' (.rule (.expression true))) := by
      intro less below depth
      have shallow : (Phrase.rule (.expression true)).depth = 21 := rfl
      have even : (Phrase.rule (.expression true)).shift 0 = some 0 := rfl
      exact ih depth rfl even (by omega) (by omega)
    cases phrase with
    | mark text => exact .discard (mark_alike bounded moves depth count)
    | oneOf texts =>
      simp only [Phrase.shift] at moves
      split at moves <;> rename_i plain <;> cases moves
      simp only [List.all_eq_true] at plain
      refine .discard (.one (fun x y near => ?_) (fun x barred => ?_) fun x is => ?_)
      · rw [show x.isMark = y.isMark from funext near.isMark]
      · rw [List.any_eq_false]
        intro text member
        rw [Token.isMark_of_isBar barred (isPlainMark_free (plain text member))]
        exact Bool.false_ne_true
      · obtain ⟨text, member, is⟩ := List.any_eq_true.mp is
        exact Token.plain_of_isPlainMark (plain text member) is
    | ahead text =>
      cases moves
      exact Alike.ahead
    | word =>
      cases moves
      exact .discard .word
    | number =>
      cases moves
      refine .discard (.one (fun x y near => by rw [near.1]) (fun x barred => ?_) fun x is => ?_)
      · rcases Token.kind_of_isBar barred with is | is | is <;> rw [is] <;> decide
      · refine Token.plain_of_kind ?_ ?_ <;> intro kind <;> rw [kind] at is <;>
          exact absurd is (by decide)
    | done =>
      cases moves
      exact .discard .done
    | semicolon =>
      cases moves
      refine .discard (.one (fun x y near => by rw [near.1, near.2]) (fun x barred => ?_)
        fun x is => ?_)
      · rcases Token.kind_of_isBar barred with is | is | is <;> rw [is] <;> rfl
      · simp only [Bool.and_eq_true, beq_iff_eq] at is
        exact Token.plain_of_kind (by simp [is.1]) (by simp [is.1])
    | type =>
      cases moves
      simp only [Phrase.depth] at enough enough'
      exact .discard (typeWithin_alike (fun less below => expression less below)
        (by omega) (by omega))
    | typeParams =>
      cases moves
      simp only [Phrase.depth] at enough enough'
      refine .discard (typeParams_alike fun left within => ?_)
      exact typeWithin_alike (fun less below => expression less (by omega)) (by omega) (by omega)
    | rule name =>
      cases moves
      obtain ⟨inner, deeper, takes⟩ := name.phrase_bounded
      simp only [Phrase.depth] at enough enough'
      exact (ih (depth + before) inner name.shift_phrase (by omega) (by omega)).weaken
        (Phrase.least_le takes) fun _ _ h => h
    | all phrases =>
      cases phrases with
      | nil =>
        cases moves
        exact .pure trivial
      | cons part rest =>
        simp only [Phrase.isBounded, Phrase.areBounded, Bool.and_eq_true, decide_eq_true_eq] at bounded
        simp only [Phrase.depth, Phrase.depthAll] at enough enough'
        simp only [Phrase.shift, Phrase.shiftAll] at moves
        split at moves <;> rename_i between first
        · have behind : ∀ left, left + part.least ≤ count →
              Alike (depth + between) (depth + behind) (Phrase.all rest).least left Whatever
                (phraseWithin limit (.all rest)) (phraseWithin limit' (.all rest)) := by
            intro left within
            -- Without a token taken the rest stays one step down, otherwise it has a hundred more.
            refine ih depth bounded.1.2 moves ?_ ?_ <;>
              simp only [Phrase.depth, Phrase.least] at * <;> split at enough <;> simp_all <;> omega
          refine .bind (deeper bounded.1.1 first (by omega)) (fun _ _ _ => behind) ?_
          simp only [Phrase.least, Phrase.takes, Phrase.someTakes, Bool.or_eq_true]
          by_cases first : part.takes = true <;>
            by_cases later : Phrase.someTakes rest = true <;> simp [first, later]
        · cases moves
    | first phrases =>
      simp only [Phrase.shift] at moves
      split at moves <;> rename_i even <;> cases moves
      cases phrases with
      | nil => exact .failure
      | cons choice rest =>
        simp only [Phrase.areEven, Bool.and_eq_true, decide_eq_true_eq] at even
        simp only [Phrase.isBounded, Phrase.chooseBounded, Bool.and_eq_true] at bounded
        simp only [Phrase.depth, Phrase.depthFirst] at enough enough'
        have each : (Phrase.first (choice :: rest)).takes = true →
            choice.takes = true ∧ (Phrase.first rest).takes = true := by
          simp only [Phrase.takes, Phrase.eachTakes, Bool.and_eq_true]
          exact id
        have chosen := deeper bounded.1 even.1 (by omega)
        have others : Alike (depth + before) (depth + before) (Phrase.first rest).least count
            Whatever (phraseWithin limit (.first rest)) (phraseWithin limit' (.first rest)) :=
          deeper bounded.2 (by rw [Phrase.shift, if_pos even.2])
            (by simp only [Phrase.depth]; omega)
        exact .either
          (chosen.weaken (Phrase.least_le fun takes => (each takes).1) fun _ _ h => h)
          (others.weaken (Phrase.least_le fun takes => (each takes).2) fun _ _ h => h)
    | maybe phrase =>
      simp only [Phrase.shift] at moves
      split at moves <;> rename_i even <;> cases moves
      simp only [Phrase.isBounded] at bounded
      simp only [Phrase.depth] at enough enough'
      exact .either ((ih depth bounded even (by omega) (by omega)).weaken (Nat.zero_le _)
        fun _ _ h => h) (.pure trivial)
    | many phrase =>
      have repeated := bounded
      have repeating := moves
      simp only [Phrase.shift] at moves
      split at moves <;> rename_i even <;> cases moves
      simp only [Phrase.isBounded, Bool.and_eq_true, decide_eq_true_eq] at bounded
      obtain ⟨⟨inner, takes⟩, shallow⟩ := bounded
      simp only [Phrase.depth] at enough enough'
      have one : Alike (depth + before) (depth + before) 1 count Whatever
          (phraseWithin limit phrase) (phraseWithin limit' phrase) :=
        (ih depth inner even (by omega) (by omega)).weaken
          (Nat.le_of_eq (Phrase.least_of_takes takes).symm) fun _ _ h => h
      have again : ∀ left < count, Alike (depth + before) (depth + before) 0 left Whatever
          (phraseWithin limit (.many phrase)) (phraseWithin limit' (.many phrase)) := by
        intro left below
        -- The round took a token, so the next one has its hundred steps.
        have steps : (Phrase.many phrase).depth = phrase.depth + 1 := by rw [Phrase.depth]
        exact ih depth repeated repeating (by omega) (by omega)
      have round := Alike.taking one fun left below _ _ _ => again left below
      exact .either (round.weaken (Nat.zero_le _) fun _ _ h => h) (.pure trivial)

/-- A named phrase is matched alike wherever the tokens look alike. -/
theorem phrase_alike (name : Rule) {count depth : Nat} :
    Alike depth depth (Phrase.rule name).least count Whatever (phrase (.rule name))
      (phrase (.rule name)) := by
  intro xs ys agree
  obtain ⟨enough, enough'⟩ := agree.lt_length
  have shallow : (Phrase.rule name).depth ≤ 100 := by
    cases name <;> simp [Phrase.depth, Rule.depth]
  have bounded : (Phrase.rule name).isBounded = true := rfl
  have even : (Phrase.rule name).shift 0 = some 0 := rfl
  exact phraseWithin_alike depth bounded even (by omega) (by omega) xs ys agree

/-- A type is read alike wherever the tokens look alike. -/
theorem type_alike {count depth : Nat} : Alike depth depth 1 count Whatever type type := by
  intro xs ys agree
  obtain ⟨enough, enough'⟩ := agree.lt_length
  exact typeWithin_alike (fun _ _ => phrase_alike (.expression true)) enough enough' xs ys agree

end Scaffold.Go
