import Mathlib.Data.List.Forall2
import Mathlib.Tactic.Tauto
import Scaffold.Go.Token

/-! What tokens look like, the brackets they open and close, and lists of tokens that agree. -/

namespace Scaffold.Go

/-- Tokens of one kind and text, behind the same gap. -/
def Token.Like (first second : Token) : Prop :=
  first.kind = second.kind ∧ first.text = second.text ∧ first.gap = second.gap

/-- Tokens of one kind and text, perhaps behind different gaps. -/
def Token.Near (first second : Token) : Prop :=
  first.kind = second.kind ∧ first.text = second.text

namespace Token

/-- Whether a token opens a clause at the head of a file or ends the file. -/
def isBar (token : Token) : Bool :=
  token.kind == .eof || token.isMark "import" || token.isMark "package"

/-- Whether a token opens a bracket. -/
def opens (token : Token) : Bool :=
  token.isMark "(" || token.isMark "[" || token.isMark "\x7b"

/-- Whether a token closes a bracket. -/
def closes (token : Token) : Bool :=
  token.isMark ")" || token.isMark "]" || token.isMark "\x7d"

/-- How many brackets are open behind a token; none if it closes one where none is open. -/
def depth (token : Token) (before : Nat) : Option Nat :=
  if token.opens then some (before + 1)
  else if token.closes then if before = 0 then none else some (before - 1)
  else some before

/-- A token of another kind is no mark. -/
theorem isMark_eq_false {token : Token} (notMark : token.kind ≠ .mark)
    (notKeyword : token.kind ≠ .keyword) (text : String) : token.isMark text = false := by
  simp [isMark, notMark, notKeyword]

/-- Marks are of two kinds. -/
theorem kind_of_isMark {token : Token} {text : String} (is : token.isMark text = true) :
    token.kind = .mark ∨ token.kind = .keyword := by
  simp only [isMark, Bool.and_eq_true, Bool.or_eq_true, beq_iff_eq] at is
  exact is.1

/-- A keyword is neither the end of a statement nor that of the file. -/
theorem plain_of_isMark {token : Token} {text : String} (is : token.isMark text = true) :
    token.kind ≠ .terminator ∧ token.kind ≠ .eof := by
  rcases kind_of_isMark is with kind | kind <;> simp [kind]

/-- A mark has no other text. -/
theorem isMark_of_isMark {token : Token} {text other : String}
    (is : token.isMark text = true) (differs : text ≠ other) : token.isMark other = false := by
  simp only [isMark, Bool.and_eq_true, beq_iff_eq] at is ⊢
  simp [is.2, differs]

/-- A bar is no mark other than the two keywords that make it one. -/
theorem isMark_of_isBar {token : Token} (barred : token.isBar = true) {text : String}
    (plain : text ≠ "import" ∧ text ≠ "package") : token.isMark text = false := by
  simp only [isBar, Bool.or_eq_true, beq_iff_eq] at barred
  rcases barred with (eof | keyword) | keyword
  · simp [isMark, eof]
  · exact isMark_of_isMark keyword plain.1.symm
  · exact isMark_of_isMark keyword plain.2.symm

/-- A bar is a mark, a keyword or the end, and nothing else. -/
theorem kind_of_isBar {token : Token} (barred : token.isBar = true) :
    token.kind = .mark ∨ token.kind = .keyword ∨ token.kind = .eof := by
  simp only [isBar, isMark, Bool.or_eq_true, Bool.and_eq_true, beq_iff_eq] at barred
  tauto

namespace Near

theorem refl (token : Token) : token.Near token :=
  ⟨rfl, rfl⟩

/-- Tokens that look the same pass the same tests for a keyword or mark. -/
theorem isMark {first second : Token} (near : first.Near second) (text : String) :
    first.isMark text = second.isMark text := by
  simp only [Token.isMark, near.1, near.2]

theorem isBar {first second : Token} (near : first.Near second) : first.isBar = second.isBar := by
  simp only [Token.isBar, near.1, near.isMark]

end Near

namespace Like

theorem near {first second : Token} (like : first.Like second) : first.Near second :=
  ⟨like.1, like.2.1⟩

theorem refl (token : Token) : token.Like token :=
  ⟨rfl, rfl, rfl⟩

theorem isMark {first second : Token} (like : first.Like second) (text : String) :
    first.isMark text = second.isMark text :=
  like.near.isMark text

theorem isBar {first second : Token} (like : first.Like second) :
    first.isBar = second.isBar :=
  like.near.isBar

end Like

section Depth

variable {token : Token} {before : Nat}

theorem depth_of_opens (opens : token.opens = true) : token.depth before = some (before + 1) :=
  if_pos opens

/-- What closes a bracket opens none. -/
theorem opens_of_closes (closes : token.closes = true) : token.opens = false := by
  have apart : ∀ text ∈ [")", "]", "\x7d"], ∀ other ∈ ["(", "[", "\x7b"], text ≠ other := by decide
  have closed : ∃ text ∈ [")", "]", "\x7d"], token.isMark text = true := by
    simpa [Token.closes, or_assoc] using closes
  obtain ⟨text, member, is⟩ := closed
  have others : ∀ other ∈ ["(", "[", "\x7b"], token.isMark other = false :=
    fun other here => isMark_of_isMark is (apart text member other here)
  simp [Token.opens, others]

theorem depth_of_closes (closes : token.closes = true) : token.depth (before + 1) = some before := by
  rw [depth, opens_of_closes closes, if_neg Bool.false_ne_true, if_pos closes]
  simp

theorem depth_of_plain (closed : token.opens = false) (opened : token.closes = false) :
    token.depth before = some before := by
  rw [depth, closed, opened, if_neg Bool.false_ne_true, if_neg Bool.false_ne_true]

/-- A bar is no bracket. -/
theorem plain_of_isBar (barred : token.isBar = true) :
    token.opens = false ∧ token.closes = false := by
  have plain : ∀ text ∈ ["(", "[", "\x7b", ")", "]", "\x7d"], token.isMark text = false := by
    intro text member
    refine isMark_of_isBar barred ?_
    constructor <;> rintro rfl <;> exact absurd member (by decide)
  simp [Token.opens, Token.closes, plain]

/-- What is no mark at all is no bracket. -/
theorem plain_of_kind (notMark : token.kind ≠ .mark) (notKeyword : token.kind ≠ .keyword) :
    token.opens = false ∧ token.closes = false := by
  simp [Token.opens, Token.closes, isMark_eq_false notMark notKeyword]

end Depth

section Marks

variable {token : Token} {text : String}

theorem opens_of_isMark (opens : text ∈ ["(", "[", "\x7b"]) (is : token.isMark text = true) :
    token.opens = true := by
  simp only [List.mem_cons, List.not_mem_nil, or_false] at opens
  rcases opens with rfl | rfl | rfl <;> simp [Token.opens, is]

theorem closes_of_isMark (closes : text ∈ [")", "]", "\x7d"]) (is : token.isMark text = true) :
    token.closes = true := by
  simp only [List.mem_cons, List.not_mem_nil, or_false] at closes
  rcases closes with rfl | rfl | rfl <;> simp [Token.closes, is]

end Marks

end Token

/-- Whether a mark is neither a bracket nor a keyword at the head of a file. -/
def isPlainMark (text : String) : Bool :=
  !(["import", "package", "(", "[", "\x7b", ")", "]", "\x7d"].contains text)

section Plain

variable {text : String}

theorem isPlainMark_free (plain : isPlainMark text = true) :
    text ≠ "import" ∧ text ≠ "package" := by
  constructor <;> rintro rfl <;> exact absurd plain (by decide)

/-- A plain mark is no bracket. -/
theorem Token.plain_of_isPlainMark {token : Token} (plain : isPlainMark text = true)
    (is : token.isMark text = true) : token.opens = false ∧ token.closes = false := by
  have others : ∀ other ∈ ["(", "[", "\x7b", ")", "]", "\x7d"], token.isMark other = false := by
    intro other member
    refine isMark_of_isMark is ?_
    rintro rfl
    simp_all [isPlainMark]
  simp [Token.opens, Token.closes, others]

end Plain

/-- How many brackets are open behind some tokens; none if one closes where none is open. -/
def depthBehind (before : Nat) : List Token → Option Nat
  | [] => some before
  | token :: rest => (token.depth before).bind fun between => depthBehind between rest

theorem depthBehind_append (before : Nat) (first second : List Token) :
    depthBehind before (first ++ second) =
      (depthBehind before first).bind fun between => depthBehind between second := by
  induction first generalizing before with
  | nil => rfl
  | cons token rest ih =>
    rw [List.cons_append, depthBehind, depthBehind, Option.bind_assoc]
    exact congrArg _ (funext fun between => ih between)

/-- Lists with alike tokens up to and including a bar behind the first `count` tokens. -/
inductive AgreeTo : Nat → List Token → List Token → Prop
  | bar {x y : Token} {xs ys : List Token} (like : x.Like y) (barred : x.isBar = true) :
      AgreeTo 0 (x :: xs) (y :: ys)
  | step {count : Nat} {x y : Token} {xs ys : List Token} (like : x.Like y)
      (rest : AgreeTo count xs ys) : AgreeTo (count + 1) (x :: xs) (y :: ys)

/--
Lists that look the same up to and including the token behind the first `count` ones.

That token is a bar, or it closes a bracket where none is left open of those that are open in front
of the lists or opened in them.
-/
inductive AgreeWithin : Nat → Nat → List Token → List Token → Prop
  | stop {depth : Nat} {x y : Token} {xs ys : List Token} (near : x.Near y)
      (stops : x.isBar = true ∨ x.depth depth = none) : AgreeWithin depth 0 (x :: xs) (y :: ys)
  | step {depth between count : Nat} {x y : Token} {xs ys : List Token} (near : x.Near y)
      (moves : x.depth depth = some between) (rest : AgreeWithin between count xs ys) :
      AgreeWithin depth (count + 1) (x :: xs) (y :: ys)

namespace AgreeTo

/-- Both lists reach at least as far as the bar. -/
theorem lt_length {count : Nat} {xs ys : List Token} (agree : AgreeTo count xs ys) :
    count < xs.length ∧ count < ys.length := by
  induction agree with
  | bar _ _ => simp
  | step _ _ ih => simpa using ih

/-- Behind some of the agreeing tokens the lists still agree. -/
theorem drop {count taken : Nat} {xs ys : List Token} (agree : AgreeTo count xs ys)
    (within : taken ≤ count) : AgreeTo (count - taken) (xs.drop taken) (ys.drop taken) := by
  -- One token at a time leaves both lists, and the bar comes one nearer.
  induction taken generalizing count xs ys with
  | zero => exact agree
  | succ taken ih =>
    cases agree with
    | bar _ _ => omega
    | step _ rest =>
      rw [Nat.add_sub_add_right]
      exact ih rest (by omega)

/-- Lists that look the same from front to back agree up to any bar in them. -/
theorem of_forall₂ {xs ys front back : List Token} {bar : Token} (like : List.Forall₂ Token.Like xs ys)
    (split : xs = front ++ bar :: back) (barred : bar.isBar = true) :
    AgreeTo front.length xs ys := by
  subst split
  induction front generalizing ys with
  | nil =>
    cases like with
    | cons first _ => exact .bar first barred
  | cons x front ih =>
    cases like with
    | cons first rest => exact .step first (ih rest)

/-- Lists with one beginning agree up to the bar behind it. -/
theorem of_append (front : List Token) {x y : Token} {xs ys : List Token} (like : x.Like y)
    (barred : x.isBar = true) : AgreeTo front.length (front ++ x :: xs) (front ++ y :: ys) := by
  induction front with
  | nil => exact .bar like barred
  | cons token front ih => exact .step (.refl token) ih

/-- With as many brackets open as there are tokens up to the bar, none closes too many. -/
theorem within {count : Nat} {xs ys : List Token} (agree : AgreeTo count xs ys) :
    ∀ depth, count ≤ depth → AgreeWithin depth count xs ys := by
  induction agree with
  | bar like barred => exact fun depth _ => .stop like.near (.inl barred)
  | @step count x y xs ys like rest ih =>
    intro depth enough
    by_cases opens : x.opens = true
    · exact .step like.near (Token.depth_of_opens opens) (ih _ (by omega))
    by_cases closes : x.closes = true
    · obtain ⟨fewer, rfl⟩ : ∃ fewer, depth = fewer + 1 := ⟨depth - 1, by omega⟩
      exact .step like.near (Token.depth_of_closes closes) (ih _ (by omega))
    · simp only [Bool.not_eq_true] at opens closes
      exact .step like.near (Token.depth_of_plain opens closes) (ih _ (by omega))

end AgreeTo

namespace AgreeWithin

variable {depth behind count taken : Nat} {xs ys : List Token}

/-- Both lists reach at least as far as the token where they stop to agree. -/
theorem lt_length (agree : AgreeWithin depth count xs ys) :
    count < xs.length ∧ count < ys.length := by
  induction agree with
  | stop _ _ => simp
  | step _ _ _ ih => simpa using ih

/-- Behind some of the agreeing tokens the lists still agree, with the brackets open there. -/
theorem drop (agree : AgreeWithin depth count xs ys)
    (moves : depthBehind depth (xs.take taken) = some behind) (within : taken ≤ count) :
    AgreeWithin behind (count - taken) (xs.drop taken) (ys.drop taken) := by
  induction taken generalizing depth count xs ys with
  | zero =>
    cases moves
    exact agree
  | succ taken ih =>
    cases agree with
    | stop _ _ => omega
    | step _ first rest =>
      rw [Nat.add_sub_add_right]
      rw [List.take_succ_cons, depthBehind, first, Option.bind_some] at moves
      exact ih rest moves (by omega)

end AgreeWithin

end Scaffold.Go
