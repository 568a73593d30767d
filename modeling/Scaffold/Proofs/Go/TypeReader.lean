import Scaffold.Go.TypeReader
import Scaffold.Proofs.Go.Reader

/-! Types are read from what the tokens look like, whatever the limit on their depth. -/

namespace Scaffold.Go

open Reading Reader

/-- Readers that do the same wherever the lists agree on fewer than `count` tokens. -/
def AlikeBelow (count : Nat) (first second : Reader TypeExpr) : Prop :=
  ∀ left < count, ∀ {depth : Nat}, Alike depth depth 1 left Whatever first second

namespace Alike

variable {depth count : Nat}

theorem ahead {texts : List String} : Alike depth depth 0 count Whatever (ahead texts) (ahead texts) := by
  refine .before .next fun left _ x y like => .guarded ?_
  rw [show x.isMark = y.isMark from funext like.isMark]

theorem strayComment : Alike depth depth 0 count Whatever strayComment strayComment :=
  .before .next fun _ _ _ _ _ => .pure trivial

theorem fieldTag : Alike depth depth 0 count Whatever fieldTag fieldTag := by
  refine .andThen (.maybe .literal) fun _ _ _ _ _ => .before .next fun _ _ x y near => ?_
  rw [near.1, near.isMark]
  exact .andThen (.guarded Iff.rfl) fun _ _ _ _ _ => .pure trivial

end Alike

namespace AlikeBelow

variable {depth count left : Nat} {t t' : Reader TypeExpr}

theorem term (inner : AlikeBelow count t t') (below : left < count) :
    Alike depth depth 1 left Whatever (term t) (term t') := by
  refine .either (inner left below) (.taking (.withTaken (V := Whatever) ?_) fun _ _ _ _ _ =>
    .pure trivial)
  exact .taking (.mark (by decide)) fun less _ _ _ _ => (inner less (by omega)).weaken (by omega) (by simp)

theorem union (inner : AlikeBelow count t t') (below : left < count) :
    Alike depth depth 1 left Whatever (union t) (union t') := by
  refine .taking (inner.term below) fun less _ _ _ _ => ?_
  refine .andThen (.many (V := Whatever) fun few _ => ?_) fun _ _ _ _ _ => .pure trivial
  exact .seqRight (.mark (by decide)) (fun fewer _ => inner.term (by omega)) (by omega)

theorem typeArgs (inner : AlikeBelow count t t') (below : left < count) :
    Alike depth depth 1 left Whatever (typeArgs t) (typeArgs t') := by
  refine .taking (.opening (by decide)) fun less _ _ _ _ => ?_
  refine .andThen (.commaSeparated fun few _ => inner.union (by omega)) fun few _ _ _ _ => ?_
  refine .andThen (.maybe (.mark (by decide))) fun fewer _ _ _ _ => ?_
  exact .andThen (.closing (by decide)) fun _ _ _ _ _ => .pure trivial

/-- Type arguments may follow a type. -/
theorem genericOver (inner : AlikeBelow count t t') (below : left < count) (base base' : TypeExpr) :
    Alike depth depth 0 left Whatever
      (Reading.maybe (Reader.typeArgs t) >>= fun
        | some args => pure (.generic base args)
        | none => pure base)
      (Reading.maybe (Reader.typeArgs t') >>= fun
        | some args => pure (.generic base' args)
        | none => pure base') := by
  refine .andThen (.maybe (inner.typeArgs below)) fun _ _ _ _ args => ?_
  cases args <;> exact .pure trivial

theorem namedType (inner : AlikeBelow count t t') (below : left < count + 1) :
    Alike depth depth 1 left Whatever (namedType t) (namedType t') := by
  refine .taking .word fun less _ _ _ _ => ?_
  have selector : Alike depth depth 1 less Token.Near (mark "." *> word) (mark "." *> word) :=
    .seqRight (.mark (by decide)) (fun _ _ => .word) (Nat.le_add_right 1 1)
  refine .andThen (.maybe selector) fun few _ _ _ selected => ?_
  -- With or without a package in front, type arguments may follow.
  cases selected with
  | none => exact inner.genericOver (by omega) _ _
  | some _ => exact inner.genericOver (by omega) _ _

theorem paramEntry (inner : AlikeBelow count t t') (below : left < count) :
    Alike depth depth 1 left Whatever (paramEntry t) (paramEntry t') := by
  refine .before .next fun less _ _ _ _ => ?_
  refine .either ?_ (.either ?_ ?_)
  · refine .before (.maybe .word) fun few _ _ _ _ => ?_
    refine .taking (.mark (by decide)) fun fewer _ _ _ _ => ?_
    refine .andThen .next fun least _ _ _ _ => ?_
    exact .andThen (inner least (by omega)) fun _ _ _ _ _ => .pure trivial
  · refine .taking .word fun few _ _ _ _ => ?_
    refine .andThen .next fun fewer _ _ _ _ => ?_
    refine .andThen (inner fewer (by omega)) fun least _ _ _ _ => ?_
    exact .andThen .ahead fun _ _ _ _ _ => .pure trivial
  · exact .taking (inner less (by omega)) fun _ _ _ _ _ => .pure trivial

theorem paramList (inner : AlikeBelow count t t') (below : left < count + 1) :
    Alike depth depth 1 left Whatever (paramList t) (paramList t') := by
  refine .taking (.opening (by decide)) fun less _ _ _ _ => ?_
  refine .andThen (.maybe (.commaSeparated fun few _ => inner.paramEntry (by omega)))
    fun few _ _ _ entries => ?_
  cases entries with
  | none => exact .andThen (.closing (by decide)) fun _ _ _ _ _ => .pure trivial
  | some values =>
    refine .andThen (.maybe (.mark (by decide))) fun _ _ _ _ _ => ?_
    exact .andThen (.closing (by decide)) fun _ _ _ _ _ => .pure trivial

theorem signature (inner : AlikeBelow count t t') (below : left < count + 1) :
    Alike depth depth 1 left Whatever (signature t) (signature t') := by
  refine .taking (inner.paramList below) fun less _ _ _ _ => ?_
  refine .andThen (.maybe (.either (inner.paramList (by omega)) ?_)) fun _ _ _ _ _ => .pure trivial
  refine .before .next fun few _ x y like => ?_
  rw [like.isMark "("]
  refine .before (.guarded Iff.rfl) fun fewer _ _ _ _ => ?_
  exact .taking (inner fewer (by omega)) fun _ _ _ _ _ => .pure trivial

theorem field (inner : AlikeBelow count t t') (below : left < count + 1) :
    Alike depth depth 1 left Whatever (field t) (field t') := by
  refine .either ?_ ?_
  · refine .taking (.commaSeparated fun _ _ => .word) fun less _ _ _ _ => ?_
    refine .andThen (inner less (by omega)) fun few _ _ _ _ => ?_
    exact .andThen .fieldTag fun _ _ _ _ _ => .pure trivial
  · refine .before (.maybe (.mark (by decide))) fun less _ _ _ _ => ?_
    refine .taking (inner.namedType (by omega)) fun few _ _ _ _ => ?_
    exact .andThen .fieldTag fun _ _ _ _ _ => .pure trivial

theorem elem (inner : AlikeBelow count t t') (below : left < count) :
    Alike depth depth 1 left Whatever (elem t) (elem t') := by
  refine .either ?_ ?_
  · refine .taking .word fun less _ _ _ _ => ?_
    exact .andThen (inner.signature (by omega)) fun _ _ _ _ _ => .pure trivial
  · refine .taking (inner.union below) fun less a b _ _ => ?_
    -- One type and several only differ in what is made of them.
    have single : ∀ {n : Nat} (c d : ElemExpr),
        Alike depth depth 0 n Whatever (pure c : Reader ElemExpr) (pure d : Reader ElemExpr) :=
      fun _ _ => .pure trivial
    split <;> split <;> exact single _ _

theorem lines {α β : Type} {r : Reader α} {s : Reader β}
    (alike : ∀ less < left, ∀ {depth : Nat}, Alike depth depth 1 less Whatever r s) :
    Alike depth depth 1 left Whatever (lines r) (lines s) := by
  refine .taking (.opening (by decide)) fun less _ _ _ _ => ?_
  refine .andThen (.maybe (alike less (by omega))) fun few _ _ _ first => ?_
  cases first with
  | none =>
    have nothing : Alike (depth + 1) (depth + 1) 0 few Whatever (pure [] : Reader (List α)) (pure [] : Reader (List β)) :=
      .pure trivial
    refine .andThen nothing fun _ _ _ _ _ => ?_
    exact .andThen (.closing (by decide)) fun _ _ _ _ _ => .pure trivial
  | some _ =>
    refine .andThen (.many (V := Whatever) fun fewer _ => ?_) fun fewer _ _ _ _ => ?_
    · exact .seqRight .done (fun least _ => alike least (by omega)) (Nat.le_add_right 1 1)
    · refine .andThen (.maybe .done) fun _ _ _ _ _ => ?_
      exact .andThen (.closing (by decide)) fun _ _ _ _ _ => .pure trivial

theorem channel (inner : AlikeBelow count t t') (below : left < count) :
    Alike depth depth 0 left Whatever (channel t) (channel t') := by
  refine .either ?_ (.either ?_ ?_)
  · refine .andThen .ahead fun less _ _ _ _ => ?_
    exact .andThen (inner less (by omega)) fun _ _ _ _ _ => .pure trivial
  · refine .andThen (.mark (by decide)) fun less _ _ _ _ => ?_
    exact .andThen (inner less (by omega)) fun _ _ _ _ _ => .pure trivial
  · exact .andThen (inner left below) fun _ _ _ _ _ => .pure trivial

/-- A type is read alike if the types and lengths inside it are. -/
theorem typeWith {e e' : Reader Unit} (inner : AlikeBelow count t t')
    (length : ∀ less < count, ∀ {depth : Nat}, Alike depth depth 1 less Whatever e e') :
    Alike depth depth 1 count Whatever (typeWith t e) (typeWith t' e') := by
  refine .before .next fun left within x y like => ?_
  rw [like.1, show x.isMark = y.isMark from funext like.isMark]
  -- The first token tells which kind of type it is, and is taken before any type inside it.
  refine .choose (fun _ => inner.namedType (by omega)) fun _ => ?_
  refine .choose (fun _ => ?pointer) fun _ => .choose (fun _ => ?paren) fun _ =>
    .choose (fun _ => ?brackets) fun _ => .choose (fun _ => ?map) fun _ =>
    .choose (fun _ => ?channel) fun _ => .choose (fun _ => ?receive) fun _ =>
    .choose (fun _ => ?func) fun _ => .choose (fun _ => ?struct) fun _ =>
    .choose (fun _ => ?interface) fun _ => .failure
  case pointer =>
    refine .taking (.mark (by decide)) fun less _ _ _ _ => ?_
    refine .andThen .strayComment fun few _ _ _ _ => ?_
    exact .andThen (inner few (by omega)) fun _ _ _ _ _ => .pure trivial
  case paren =>
    refine .taking (.opening (by decide)) fun less _ _ _ _ => ?_
    refine .andThen .strayComment fun few _ _ _ _ => ?_
    refine .andThen (inner few (by omega)) fun _ _ _ _ _ => ?_
    exact .andThen (.closing (by decide)) fun _ _ _ _ _ => .pure trivial
  case brackets =>
    refine .taking (.opening (by decide)) fun less _ _ _ _ => ?_
    -- A bracket closed at once is that of a slice.
    refine .optional (.closing (by decide)) (fun few _ _ _ _ => ?_) ?_
    · exact .andThen (inner few (by omega)) fun _ _ _ _ _ => .pure trivial
    · refine .andThen (.withTaken (length less (by omega))) fun fewer _ _ _ _ => ?_
      refine .andThen (.closing (by decide)) fun least _ _ _ _ => ?_
      exact .andThen (inner least (by omega)) fun _ _ _ _ _ => .pure trivial
  case map =>
    refine .taking (.mark (by decide)) fun less _ _ _ _ => ?_
    refine .andThen (.opening (by decide)) fun few _ _ _ _ => ?_
    refine .andThen (inner few (by omega)) fun fewer _ _ _ _ => ?_
    refine .andThen (.closing (by decide)) fun least _ _ _ _ => ?_
    exact .andThen (inner least (by omega)) fun _ _ _ _ _ => .pure trivial
  case channel =>
    exact .seqRight (.mark (by decide)) (fun less _ => inner.channel (by omega)) (Nat.le_refl _)
  case receive =>
    refine .taking (.mark (by decide)) fun less _ _ _ _ => ?_
    refine .andThen (.mark (by decide)) fun few _ _ _ _ => ?_
    exact .andThen (inner few (by omega)) fun _ _ _ _ _ => .pure trivial
  case func =>
    refine .taking (.mark (by decide)) fun less _ _ _ _ => ?_
    exact .andThen (inner.signature (by omega)) fun _ _ _ _ _ => .pure trivial
  case struct =>
    refine .taking (.mark (by decide)) fun less _ _ _ _ => ?_
    exact .andThen (lines fun few _ => inner.field (by omega)) fun _ _ _ _ _ => .pure trivial
  case interface =>
    refine .taking (.mark (by decide)) fun less _ _ _ _ => ?_
    exact .andThen (lines fun few _ => inner.elem (by omega)) fun _ _ _ _ _ => .pure trivial

end AlikeBelow

/-- The limit on the depth of types never matters, as every type inside another takes a token. -/
theorem typeWithin_alike {count limit limit' depth : Nat} {e e' : Reader Unit}
    (length : ∀ less < count, ∀ {depth : Nat}, Alike depth depth 1 less Whatever e e') (enough : count < limit)
    (enough' : count < limit') :
    Alike depth depth 1 count Whatever (typeWithin e limit) (typeWithin e' limit') := by
  induction limit generalizing count limit' depth with
  | zero => omega
  | succ limit ih =>
    obtain ⟨limit', rfl⟩ : ∃ less, limit' = less + 1 := ⟨limit' - 1, by omega⟩
    refine AlikeBelow.typeWith (fun left below => ?_) length
    exact ih (fun less within => length less (by omega)) (by omega) (by omega)

theorem typeParams_alike {count depth : Nat} {t t' : Reader TypeExpr} (inner : AlikeBelow count t t') :
    Alike depth depth 1 count Whatever (typeParams t) (typeParams t') := by
  have group : ∀ few < count, ∀ {depth : Nat}, Alike depth depth 1 few Whatever
      (do
        let names ← commaSeparated word
        let _ ← union t
        return names.map Token.text : Reader (List String))
      (do
        let names ← commaSeparated word
        let _ ← union t'
        return names.map Token.text : Reader (List String)) := by
    intro few below
    refine .taking (.commaSeparated fun _ _ => .word) fun fewer _ _ _ _ => ?_
    exact .andThen (inner.union (by omega)) fun _ _ _ _ _ => .pure trivial
  refine .taking (.opening (by decide)) fun less _ _ _ _ => ?_
  refine .andThen (.commaSeparated fun few _ => group few (by omega)) fun few _ _ _ _ => ?_
  refine .andThen (.maybe (.mark (by decide))) fun fewer _ _ _ _ => ?_
  exact .andThen (.closing (by decide)) fun _ _ _ _ _ => .pure trivial

end Scaffold.Go
