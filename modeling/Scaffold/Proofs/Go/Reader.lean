import Mathlib.Data.Option.Basic
import Scaffold.Go.Reader
import Scaffold.Proofs.Go.Token
import Scaffold.Proofs.Reading

/-! Readers told apart only by what they may read: they agree on tokens that look the same, up to a
bar or to a bracket that they have not opened. -/

namespace Scaffold.Go

open Reading

/-- A test takes the first token if it passes, and nothing otherwise. -/
theorem one_eq_some {test : Token → Bool} {xs rest : List Token} {token : Token} :
    one test xs = some (token, rest) ↔ xs = token :: rest ∧ test token = true := by
  cases xs with
  | nil => simp [one]
  | cons x xs =>
    simp only [one]
    split
    · simp_all
      rintro rfl rfl
      assumption
    · simp_all
      rintro rfl rfl
      assumption

theorem one_cons_of_true {test : Token → Bool} {token : Token} (passes : test token = true)
    (rest : List Token) : one test (token :: rest) = some (token, rest) :=
  one_eq_some.mpr ⟨rfl, passes⟩

theorem one_cons_of_false {test : Token → Bool} {token : Token} (fails : test token = false)
    (rest : List Token) : one test (token :: rest) = none := by
  simp [one, fails]

theorem next_cons (token : Token) (rest : List Token) :
    (next : Reader Token) (token :: rest) = some (token, token :: rest) := rfl

/--
Two readers that do the same on lists that agree up to some token behind `count` others.

Both fail, or both take the same number of tokens, at least `least` of them and never that token;
then the brackets open in front and `behind` are as many as the tokens taken say.
-/
def Alike {α β : Type} (before behind least count : Nat) (V : α → β → Prop) (first : Reader α)
    (second : Reader β) : Prop :=
  ∀ xs ys : List Token, AgreeWithin before count xs ys →
    (first xs = none ∧ second ys = none) ∨
      ∃ a b taken, first xs = some (a, xs.drop taken) ∧ second ys = some (b, ys.drop taken) ∧
        V a b ∧ least ≤ taken ∧ taken ≤ count ∧ depthBehind before (xs.take taken) = some behind

/-- The relation between results that nothing depends on. -/
def Whatever {α β : Type} (_ : α) (_ : β) : Prop :=
  True

namespace Alike

variable {α β γ δ : Type} {start between stop depth least later count : Nat} {V : α → β → Prop}
  {W : γ → δ → Prop}

/-- Readers that close the brackets they open do the same up to a bar, whatever is closed there. -/
theorem upTo {r : Reader α} {s : Reader β} (alike : ∀ depth, Alike depth depth least count V r s)
    {xs ys : List Token} (agree : AgreeTo count xs ys) :
    (r xs = none ∧ s ys = none) ∨
      ∃ a b taken, r xs = some (a, xs.drop taken) ∧ s ys = some (b, ys.drop taken) ∧
        V a b ∧ least ≤ taken ∧ taken ≤ count := by
  rcases alike count xs ys (agree.within count (Nat.le_refl _)) with
    failed | ⟨a, b, taken, one, other, value, low, high, -⟩
  · exact .inl failed
  · exact .inr ⟨a, b, taken, one, other, value, low, high⟩

theorem weaken {wider : α → β → Prop} {fewer : Nat} {r : Reader α} {s : Reader β}
    (alike : Alike start stop least count V r s) (fewer_le : fewer ≤ least)
    (widen : ∀ a b, V a b → wider a b) : Alike start stop fewer count wider r s := by
  intro xs ys agree
  rcases alike xs ys agree with failed | ⟨a, b, taken, one, other, value, low, rest⟩
  · exact .inl failed
  · exact .inr ⟨a, b, taken, one, other, widen a b value, by omega, rest⟩

theorem pure {a : α} {b : β} (value : V a b) :
    Alike depth depth 0 count V (Pure.pure a) (Pure.pure b) := by
  intro xs ys _
  exact .inr ⟨a, b, 0, rfl, rfl, value, by omega, by omega, rfl⟩

theorem failure : Alike start stop least count V (failure : Reader α) (failure : Reader β) :=
  fun _ _ _ => .inl ⟨rfl, rfl⟩

/-- What is read first leaves fewer tokens for what is read next. -/
theorem bind {total : Nat} {r : Reader α} {s : Reader β} {f : α → Reader γ} {g : β → Reader δ}
    (first : Alike start between least count V r s)
    (next : ∀ a b, V a b → ∀ left, left + least ≤ count →
      Alike between stop later left W (f a) (g b))
    (enough : total ≤ least + later) : Alike start stop total count W (r >>= f) (s >>= g) := by
  intro xs ys agree
  rw [bind_run, bind_run]
  rcases first xs ys agree with ⟨one, other⟩ | ⟨a, b, taken, one, other, value, low, high, moves⟩
  · exact .inl ⟨by rw [one, Option.bind_none], by rw [other, Option.bind_none]⟩
  · rw [one, other]
    simp only [Option.bind_some]
    rcases next a b value (count - taken) (by omega) _ _ (agree.drop moves high) with
      failed | ⟨c, d, more, one, other, value, moreLow, moreHigh, moved⟩
    · exact .inl failed
    · refine .inr ⟨c, d, taken + more, ?_, ?_, value, by omega, by omega, ?_⟩
      · rw [one, List.drop_drop]
      · rw [other, List.drop_drop]
      · rw [List.take_add, depthBehind_append, moves, Option.bind_some, moved]

/-- A step that takes a token, and whatever is read behind it. -/
theorem taking {r : Reader α} {s : Reader β} {f : α → Reader γ} {g : β → Reader δ}
    (first : Alike start between 1 count V r s)
    (next : ∀ left < count, ∀ a b, V a b → Alike between stop 0 left W (f a) (g b)) :
    Alike start stop 1 count W (r >>= f) (s >>= g) :=
  bind first (fun a b value left within => next left (by omega) a b value) (Nat.le_refl _)

/-- A step that may take nothing, before one that takes something. -/
theorem before {r : Reader α} {s : Reader β} {f : α → Reader γ} {g : β → Reader δ}
    (first : Alike start between 0 count V r s)
    (next : ∀ left ≤ count, ∀ a b, V a b → Alike between stop least left W (f a) (g b)) :
    Alike start stop least count W (r >>= f) (s >>= g) :=
  bind first (fun a b value left within => next left (by omega) a b value) (by omega)

/-- Two steps, of which nothing is known but that they are alike. -/
theorem andThen {r : Reader α} {s : Reader β} {f : α → Reader γ} {g : β → Reader δ}
    (first : Alike start between least count V r s)
    (next : ∀ left ≤ count, ∀ a b, V a b → Alike between stop 0 left W (f a) (g b)) :
    Alike start stop 0 count W (r >>= f) (s >>= g) :=
  bind first (fun a b value left within => next left (by omega) a b value) (Nat.zero_le _)

theorem map {f : α → γ} {g : β → δ} {r : Reader α} {s : Reader β}
    (first : Alike start stop least count V r s)
    (values : ∀ a b, V a b → W (f a) (g b)) :
    Alike start stop least count W (f <$> r) (g <$> s) := by
  intro xs ys agree
  rw [map_run, map_run]
  rcases first xs ys agree with ⟨one, other⟩ | ⟨a, b, taken, one, other, value, rest⟩
  · exact .inl ⟨by rw [one, Option.map_none], by rw [other, Option.map_none]⟩
  · exact .inr ⟨f a, g b, taken, by rw [one, Option.map_some], by rw [other, Option.map_some],
      values a b value, rest⟩

/-- A reader is alike whether or not its result is kept. -/
theorem discard {r : Reader α} {s : Reader β} (first : Alike start stop least count V r s) :
    Alike start stop least count Whatever (Functor.discard r) (Functor.discard s) :=
  first.map fun _ _ _ => trivial

/-- The second of two readers counts, read behind the first. -/
theorem seqRight {total : Nat} {r : Reader α} {s : Reader β} {t : Reader γ} {u : Reader δ}
    (first : Alike start between least count V r s)
    (next : ∀ left, left + least ≤ count → Alike between stop later left W t u)
    (enough : total ≤ least + later) : Alike start stop total count W (r *> t) (s *> u) :=
  bind first (fun _ _ _ => next) enough

/-- The first of two readers counts, with the second read behind it. -/
theorem seqLeft {total : Nat} {r : Reader α} {s : Reader β} {t : Reader γ} {u : Reader δ}
    (first : Alike start between least count V r s)
    (next : ∀ left, left + least ≤ count → Alike between stop later left W t u)
    (enough : total ≤ least) : Alike start stop total count V (r <* t) (s <* u) :=
  bind first (fun _ _ value left within =>
    bind (next left within) (fun _ _ _ _ _ => pure value) (Nat.zero_le _)) enough

theorem either {r r' : Reader α} {s s' : Reader β} (first : Alike start stop least count V r s)
    (second : Alike start stop least count V r' s') :
    Alike start stop least count V (Reading.either r r') (Reading.either s s') := by
  intro xs ys agree
  rw [either_run, either_run]
  rcases first xs ys agree with ⟨one, other⟩ | ⟨a, b, taken, one, other, rest⟩
  · rw [one, other, Option.none_or, Option.none_or]
    exact second xs ys agree
  · exact .inr ⟨a, b, taken, by rw [one, Option.some_or], by rw [other, Option.some_or], rest⟩

/-- A choice that does not depend on the side. -/
theorem choose {choice : Prop} [Decidable choice] {r r' : Reader α} {s s' : Reader β}
    (first : choice → Alike start stop least count V r s)
    (second : ¬choice → Alike start stop least count V r' s') :
    Alike start stop least count V (if choice then r else r') (if choice then s else s') := by
  split
  · exact first ‹_›
  · exact second ‹_›

/-- An optional reader always succeeds, and takes something only with its reader. -/
theorem maybe {r : Reader α} {s : Reader β} (alike : Alike depth depth least count V r s) :
    Alike depth depth 0 count (Option.Rel V) (Reading.maybe r) (Reading.maybe s) :=
  either ((alike.map fun _ _ value => Option.Rel.some value).weaken (Nat.zero_le _) fun _ _ h => h)
    (pure .none)

/-- What follows an optional reader may depend on whether that has moved between brackets. -/
theorem optional {r : Reader α} {s : Reader β} {f : Option α → Reader γ} {g : Option β → Reader δ}
    (first : Alike start between least count V r s)
    (found : ∀ left ≤ count, ∀ a b, V a b → Alike between stop 0 left W (f (some a)) (g (some b)))
    (missing : Alike start stop 0 count W (f none) (g none)) :
    Alike start stop 0 count W (Reading.maybe r >>= f) (Reading.maybe s >>= g) := by
  intro xs ys agree
  have both := andThen first found xs ys agree
  rw [bind_run, bind_run] at both
  rw [bind_run, bind_run, maybe_run, maybe_run]
  rcases first xs ys agree with ⟨one, other⟩ | ⟨a, b, taken, one, other, -⟩
  · rw [one, other]
    exact missing xs ys agree
  · rw [one, other] at both ⊢
    exact both

theorem next : Alike depth depth 0 count Token.Near Reading.next Reading.next := by
  intro xs ys agree
  cases agree with
  | stop near _ => exact .inr ⟨_, _, 0, rfl, rfl, near, by omega, by omega, rfl⟩
  | step near _ _ => exact .inr ⟨_, _, 0, rfl, rfl, near, by omega, by omega, rfl⟩

/-- A test for one kind of move between brackets, which no bar makes, takes one token. -/
theorem move {test : Token → Bool} (steady : ∀ x y : Token, x.Near y → test x = test y)
    (refuses : ∀ x : Token, x.isBar = true → test x = false)
    (moves : ∀ x : Token, test x = true → x.depth start = some stop) :
    Alike start stop 1 count Token.Near (Reading.one test) (Reading.one test) := by
  intro xs ys agree
  cases agree with
  | @stop _ x y xs ys near stops =>
    have fails : test x = false := by
      rcases stops with barred | closes
      · exact refuses x barred
      · by_contra passes
        rw [moves x (by simpa using passes)] at closes
        cases closes
    exact .inl ⟨one_cons_of_false fails _, one_cons_of_false (steady x y near ▸ fails) _⟩
  | @step _ _ count x y xs ys near moved rest =>
    by_cases passes : test x = true
    · refine .inr ⟨x, y, 1, one_cons_of_true passes _, one_cons_of_true (steady x y near ▸ passes) _,
        near, by omega, by omega, ?_⟩
      rw [List.take_succ_cons, List.take_zero, depthBehind, moves x passes]
      rfl
    · simp only [Bool.not_eq_true] at passes
      exact .inl ⟨one_cons_of_false passes _, one_cons_of_false (steady x y near ▸ passes) _⟩

/-- A test that bars and brackets never pass takes one token. -/
theorem one {test : Token → Bool} (steady : ∀ x y : Token, x.Near y → test x = test y)
    (refuses : ∀ x : Token, x.isBar = true → test x = false)
    (plain : ∀ x : Token, test x = true → x.opens = false ∧ x.closes = false) :
    Alike depth depth 1 count Token.Near (Reading.one test) (Reading.one test) :=
  move steady refuses fun x passes => Token.depth_of_plain (plain x passes).1 (plain x passes).2

/-- A reader that takes something each round is repeated alike, whatever the limits allow. -/
theorem manyWithin {r : Reader α} {s : Reader β}
    (alike : ∀ left ≤ count, Alike depth depth 1 left V r s)
    {limit limit' : Nat} (enough : count < limit) (enough' : count < limit') :
    Alike depth depth 0 count (List.Forall₂ V) (Reading.manyWithin r limit)
      (Reading.manyWithin s limit') := by
  -- A round that reads leaves fewer tokens, so the limits are never what ends the rounds.
  induction limit generalizing count limit' with
  | zero => omega
  | succ limit ih =>
    obtain ⟨limit', rfl⟩ : ∃ less, limit' = less + 1 := ⟨limit' - 1, by omega⟩
    intro xs ys agree
    rw [manyWithin_succ_run, manyWithin_succ_run]
    rcases alike count (Nat.le_refl _) xs ys agree with
      ⟨one, other⟩ | ⟨a, b, taken, one, other, value, low, high, moves⟩
    · rw [one, other]
      exact .inr ⟨[], [], 0, rfl, rfl, .nil, by omega, by omega, rfl⟩
    · rw [one, other]
      have fewer : ∀ left ≤ count - taken, Alike depth depth 1 left V r s :=
        fun left within => alike left (by omega)
      have below : count - taken < limit' := by omega
      rcases ih fewer (by omega) below _ _ (agree.drop moves high) with
        ⟨one, other⟩ | ⟨as, bs, more, one, other, values, -, moreHigh, moved⟩
      · exact .inl ⟨by simp [one], by simp [other]⟩
      · refine .inr ⟨a :: as, b :: bs, taken + more, ?_, ?_, .cons value values, by omega,
          by omega, ?_⟩
        · simp [one, List.drop_drop]
        · simp [other, List.drop_drop]
        · rw [List.take_add, depthBehind_append, moves, Option.bind_some, moved]

/-- A reader that takes something each round is repeated alike. -/
theorem many {r : Reader α} {s : Reader β}
    (alike : ∀ left ≤ count, Alike depth depth 1 left V r s) :
    Alike depth depth 0 count (List.Forall₂ V) (Reading.many r) (Reading.many s) := by
  intro xs ys agree
  obtain ⟨enough, enough'⟩ := agree.lt_length
  exact manyWithin alike enough enough' xs ys agree

/-- One or more with separators between them are read alike. -/
theorem separatedBy {ρ σ : Type} {U : ρ → σ → Prop} {separator : Reader ρ} {separator' : Reader σ}
    {r : Reader α} {s : Reader β}
    (divides : ∀ left ≤ count, Alike depth depth 1 left U separator separator')
    (alike : ∀ left ≤ count, Alike depth depth 1 left V r s) :
    Alike depth depth 1 count (List.Forall₂ V) (Reading.separatedBy separator r)
      (Reading.separatedBy separator' s) := by
  refine taking (alike count (Nat.le_refl _)) fun left below a b value => ?_
  refine andThen (many fun less within => ?_) fun _ _ _ _ values => pure (.cons value values)
  exact seqRight (divides less (by omega)) (fun few behind => alike few (by omega)) (by omega)

/-- What a reader takes is as many tokens on either side. -/
theorem withTaken {r : Reader α} {s : Reader β} (alike : Alike start stop least count V r s) :
    Alike start stop least count (fun first second => V first.1 second.1) (Reading.withTaken r)
      (Reading.withTaken s) := by
  intro xs ys agree
  rw [withTaken_run, withTaken_run]
  rcases alike xs ys agree with ⟨one, other⟩ | ⟨a, b, taken, one, other, value, rest⟩
  · exact .inl ⟨by rw [one, Option.map_none], by rw [other, Option.map_none]⟩
  · exact .inr ⟨_, _, taken, by rw [one, Option.map_some], by rw [other, Option.map_some], value,
      rest⟩

/-- A test that holds on both sides or on neither takes nothing. -/
theorem guarded {holds holds' : Prop} [Decidable holds] [Decidable holds'] (same : holds ↔ holds') :
    Alike depth depth 0 count Whatever (guard holds : Reader Unit) (guard holds' : Reader Unit) := by
  unfold guard
  by_cases test : holds
  · rw [if_pos test, if_pos (same.mp test)]
    exact pure trivial
  · rw [if_neg test, if_neg fun other => test (same.mpr other)]
    exact failure

variable {text : String}

/-- A mark that is no bracket, other than the keywords of a file's head. -/
theorem mark (plain : isPlainMark text = true) :
    Alike depth depth 1 count Token.Near (Reader.mark text) (Reader.mark text) :=
  one (fun _ _ near => near.isMark text)
    (fun _ barred => Token.isMark_of_isBar barred (isPlainMark_free plain))
    (fun _ is => Token.plain_of_isPlainMark plain is)

/-- A mark that opens a bracket. -/
theorem opening (opens : text ∈ ["(", "[", "\x7b"]) :
    Alike depth (depth + 1) 1 count Token.Near (Reader.mark text) (Reader.mark text) := by
  refine move (fun _ _ near => near.isMark text) (fun x barred => ?_) fun x is => ?_
  · refine Token.isMark_of_isBar barred ?_
    constructor <;> rintro rfl <;> exact absurd opens (by decide)
  · exact Token.depth_of_opens (Token.opens_of_isMark opens is)

/-- A mark that closes a bracket, where one is open. -/
theorem closing (closes : text ∈ [")", "]", "\x7d"]) :
    Alike (depth + 1) depth 1 count Token.Near (Reader.mark text) (Reader.mark text) := by
  refine move (fun _ _ near => near.isMark text) (fun x barred => ?_) fun x is => ?_
  · refine Token.isMark_of_isBar barred ?_
    constructor <;> rintro rfl <;> exact absurd closes (by decide)
  · exact Token.depth_of_closes (Token.closes_of_isMark closes is)

/-- A test for one of the kinds that marks and the end do not have. -/
theorem kind {wanted : TokenKind} (notMark : wanted ≠ .mark) (notKeyword : wanted ≠ .keyword)
    (notEof : wanted ≠ .eof) : Alike depth depth 1 count Token.Near
      (Reading.one (·.kind == wanted)) (Reading.one (·.kind == wanted)) := by
  refine one (fun x y near => by rw [near.1]) (fun x barred => ?_) fun x is => ?_
  · rcases Token.kind_of_isBar barred with is | is | is <;> rw [is, beq_eq_false_iff_ne]
    · exact notMark.symm
    · exact notKeyword.symm
    · exact notEof.symm
  · rw [beq_iff_eq] at is
    exact Token.plain_of_kind (is ▸ notMark) (is ▸ notKeyword)

theorem word : Alike depth depth 1 count Token.Near Reader.word Reader.word :=
  kind (by decide) (by decide) (by decide)

theorem literal : Alike depth depth 1 count Token.Near Reader.literal Reader.literal :=
  kind (by decide) (by decide) (by decide)

theorem done : Alike depth depth 1 count Token.Near Reader.done Reader.done :=
  kind (by decide) (by decide) (by decide)

/-- One or more with commas between them are read alike. -/
theorem commaSeparated {r : Reader α} {s : Reader β}
    (alike : ∀ left ≤ count, Alike depth depth 1 left V r s) :
    Alike depth depth 1 count (List.Forall₂ V) (Reader.commaSeparated r)
      (Reader.commaSeparated s) :=
  separatedBy (fun _ _ => mark (by decide)) alike

end Alike

end Scaffold.Go
