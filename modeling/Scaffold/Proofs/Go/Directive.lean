import Scaffold.Go.Header
import Scaffold.Proofs.Go.ImportPath
import Scaffold.Proofs.Go.Seam
import Scaffold.Proofs.Text.Utf8

/-! Which comments are directives, and that their bytes alone decide it. -/

namespace Scaffold.Go

/-- A lower-case letter or a digit. -/
def IsLowerOrDigit (c : Char) : Prop :=
  ('a' ≤ c ∧ c ≤ 'z') ∨ ('0' ≤ c ∧ c ≤ '9')

/--
The comments that are directives.

A line directive may say anything. Any other names a tool up to its first colon, and has
something right behind it.
-/
inductive IsDirectiveText : List Char → Prop
  | line (rest : List Char) : IsDirectiveText ("//line ".toList ++ rest)
  | tool {tool : List Char} {next : Char} (named : tool ≠ [])
      (lower : ∀ c ∈ tool, IsLowerOrDigit c) (follows : IsLowerOrDigit next) (rest : List Char) :
      IsDirectiveText ("//".toList ++ (tool ++ ':' :: next :: rest))

/-- What may stand next to the colon of a directive, by its number. -/
theorem isDirectiveChar_eq (c : Char) : isDirectiveChar c =
    ((97 ≤ c.toNat && c.toNat ≤ 122) || (48 ≤ c.toNat && c.toNat ≤ 57)) :=
  rfl

theorem isDirectiveChar_iff {c : Char} : isDirectiveChar c = true ↔ IsLowerOrDigit c := by
  simp only [isDirectiveChar_eq, Bool.or_eq_true, Bool.and_eq_true, decide_eq_true_eq]
  rfl

/-- A colon is nothing that a tool is named with. -/
theorem IsLowerOrDigit.ne_colon {c : Char} (lower : IsLowerOrDigit c) : c ≠ ':' := by
  rintro rfl
  revert lower
  simp only [IsLowerOrDigit]
  decide

/-- Letters and digits are among the ASCII characters. -/
theorem IsLowerOrDigit.ascii {c : Char} (lower : IsLowerOrDigit c) : c.toNat < 128 := by
  have bounds : ∀ {d : Char}, c ≤ d → c.toNat ≤ d.toNat := fun below => below
  rcases lower with ⟨-, letter⟩ | ⟨-, digit⟩
  · exact Nat.lt_of_le_of_lt (bounds letter) (by decide)
  · exact Nat.lt_of_le_of_lt (bounds digit) (by decide)

/-- Text up to its first colon, and what follows the colon. -/
theorem eq_or_split_colon (body : List Char) :
    (∀ c ∈ body, (c == ':') = false) ∨ ∃ tool rest, (∀ c ∈ tool, (c == ':') = false) ∧
      body = tool ++ ':' :: rest := by
  by_cases held : ':' ∈ body
  · obtain ⟨tool, rest, split, free⟩ := List.eq_append_cons_of_mem held
    exact .inr ⟨tool, rest, fun c member => beq_false_of_ne fun same => free (same ▸ member), split⟩
  · exact .inl fun c member => beq_false_of_ne fun same => held (same ▸ member)

/-- The run up to the first colon is the tool. -/
theorem leadingRun_colon {tool : List Char} (free : ∀ c ∈ tool, (c == ':') = false)
    (rest : List Char) :
    leadingRun (· != ':') (tool ++ ':' :: rest) = (tool, ':' :: rest) := by
  apply leadingRun_run
  · intro c member
    show (!(c == ':')) = true
    rw [free c member]
    rfl
  · intro c first
    cases first
    rfl

/-- There is one way to divide a text at its first colon. -/
theorem split_colon_unique {tool other rest more : List Char}
    (free : ∀ c ∈ tool, (c == ':') = false) (free' : ∀ c ∈ other, (c == ':') = false)
    (same : tool ++ ':' :: rest = other ++ ':' :: more) : tool = other ∧ rest = more := by
  have runs := leadingRun_colon free rest
  rw [same, leadingRun_colon free' more] at runs
  cases runs
  exact ⟨rfl, rfl⟩

theorem free_of_lower {tool : List Char} (lower : ∀ c ∈ tool, IsLowerOrDigit c) :
    ∀ c ∈ tool, (c == ':') = false :=
  fun c member => beq_false_of_ne (lower c member).ne_colon

/-- Without a colon there is nothing behind the run. -/
theorem leadingRun_no_colon {body : List Char} (free : ∀ c ∈ body, (c == ':') = false) :
    leadingRun (· != ':') body = (body, []) := by
  have all : leadingRun (· != ':') (body ++ []) = (body, []) := by
    apply leadingRun_run
    · intro c member
      show (!(c == ':')) = true
      rw [free c member]
      rfl
    · intro c none
      cases none
  rwa [List.append_nil] at all

section Grammar

variable {comment : String} {body : List Char}

/-- Behind two slashes stands `line ` or the name of a tool, a colon and something more. -/
theorem isDirective_of_body (slashes : comment.toList = "//".toList ++ body) :
    isDirective comment = true ↔ "line ".toList <+: body ∨ ∃ tool next rest,
      tool ≠ [] ∧ (∀ c ∈ tool, IsLowerOrDigit c) ∧ IsLowerOrDigit next ∧
      body = tool ++ ':' :: next :: rest := by
  have front : afterPrefix? ['/', '/'] comment.toList = some body := by
    rw [slashes]
    exact afterPrefix?_append _ body
  simp only [isDirective, front]
  by_cases line : "line ".toList <+: body
  · rw [if_pos (List.isPrefixOf_iff_prefix.mpr line)]
    exact iff_of_true rfl (.inl line)
  · have other : ("line ".toList.isPrefixOf body) = false := by
      rw [Bool.eq_false_iff]
      exact fun leads => line (List.isPrefixOf_iff_prefix.mp leads)
    simp only [other, Bool.false_eq_true, if_false, line, false_or]
    rcases eq_or_split_colon body with free | ⟨tool, rest, free, rfl⟩
    · rw [leadingRun_no_colon free]
      simp only [Bool.false_eq_true, false_iff]
      rintro ⟨tool, next, rest, -, -, -, rfl⟩
      cases free ':' (by simp)
    · -- The first colon is the only one that can end the name of a tool.
      rw [leadingRun_colon free]
      cases rest with
      | nil =>
        simp only [Bool.false_eq_true, false_iff]
        rintro ⟨tool', next, rest, -, lower, -, same⟩
        cases (split_colon_unique free (free_of_lower lower) same).2
      | cons next rest =>
        simp only [Bool.and_eq_true, Bool.not_eq_true', List.isEmpty_eq_false_iff,
          List.all_eq_true, isDirectiveChar_iff, and_assoc]
        constructor
        · rintro ⟨named, lower, follows⟩
          exact ⟨tool, next, rest, named, lower, follows, rfl⟩
        · rintro ⟨tool', next', rest', named, lower, follows, same⟩
          obtain ⟨rfl, rest⟩ := split_colon_unique free (free_of_lower lower) same
          cases rest
          exact ⟨named, lower, follows⟩

/-- Directives are the comments of their grammar. -/
theorem isDirective_iff (comment : String) :
    isDirective comment = true ↔ IsDirectiveText comment.toList := by
  constructor
  · intro directive
    -- Without the slashes, the answer is no at once.
    have slashes : ∃ body, comment.toList = "//".toList ++ body := by
      cases front : afterPrefix? ['/', '/'] comment.toList with
      | none => simp [isDirective, front] at directive
      | some body => exact ⟨body, eq_of_afterPrefix? front⟩
    obtain ⟨body, slashes⟩ := slashes
    rw [slashes]
    rcases (isDirective_of_body slashes).mp directive with
      ⟨rest, rfl⟩ | ⟨tool, next, rest, named, lower, follows, rfl⟩
    · exact .line rest
    · exact .tool named lower follows rest
  · intro spelled
    generalize split : comment.toList = text at spelled
    cases spelled with
    | line rest => exact (isDirective_of_body split).mpr (.inl ⟨rest, rfl⟩)
    | tool named lower follows rest =>
      exact (isDirective_of_body split).mpr (.inr ⟨_, _, rest, named, lower, follows, rfl⟩)

end Grammar

section Bytes

/-- Whether a byte may stand next to the colon of a directive. -/
def isDirectiveByte (byte : UInt8) : Bool :=
  (97 ≤ byte && byte ≤ 122) || (48 ≤ byte && byte ≤ 57)

/-- Looks at every byte up to the one behind the colon; there is no answer where one is missing. -/
def plainAround? (bytes : List UInt8) (colon : Nat) : Option Bool :=
  ((List.range (colon + 2)).filter (· != colon)).allM fun place =>
    bytes[place]?.map isDirectiveByte

/-- Directives told by their bytes, looked up by their places around the first colon. -/
def directiveByBytes? (bytes : List UInt8) : Option Bool :=
  let body := bytes.drop 2
  if !(utf8Bytes "//".toList).isPrefixOf bytes then some false
  else if (utf8Bytes "line ".toList).isPrefixOf body then some true
  else match body.findIdx? (· == 58) with
    | none => some false
    | some colon =>
      if colon = 0 ∨ body.length ≤ colon + 1 then some false else plainAround? body colon

/-- A byte tells whether it belongs to a character that may stand next to the colon. -/
theorem readsAscii_isDirectiveByte : ReadsAscii isDirectiveChar isDirectiveByte where
  ascii := by
    intro c low
    have whole : c.toNat % 2 ^ 8 = c.toNat := Nat.mod_eq_of_lt (by omega)
    simp only [isDirectiveByte, isDirectiveChar_eq, UInt8.le_iff_toNat_le, UInt8.toNat_ofNat',
      whole]
    rfl
  wide := by
    intro c wide
    rw [Bool.eq_false_iff]
    intro plain
    have := (isDirectiveChar_iff.mp plain).ascii
    omega
  high := by
    intro byte high
    simp only [isDirectiveByte, UInt8.le_iff_toNat_le, Bool.or_eq_false_iff, Bool.and_eq_false_iff,
      decide_eq_false_iff_not]
    exact ⟨.inr fun low => absurd low (by simp; omega), .inr fun low => absurd low (by simp; omega)⟩

/-- Where each place holds something, all that they hold is looked at. -/
theorem allM_of_held {α β : Type} {look : α → Option β} {places : List α} {held : List β}
    (holds : places.map look = held.map some) (test : β → Bool) :
    (places.allM fun place => (look place).map test) = some (held.all test) := by
  induction places generalizing held with
  | nil =>
    obtain rfl := List.map_eq_nil_iff.mp holds.symm
    rfl
  | cons place rest ih =>
    cases held with
    | nil => cases holds
    | cons found more =>
      obtain ⟨first, others⟩ := List.cons.inj holds
      rw [List.allM, first, List.all_cons]
      cases passes : test found with
      | false => simp [passes]
      | true => simpa [passes] using ih others

/-- Around a colon that something follows, no byte is missing. -/
theorem plainAround?_append (front : List UInt8) (colon next : UInt8) (rest : List UInt8) :
    plainAround? (front ++ colon :: next :: rest) front.length =
      some (front.all isDirectiveByte && isDirectiveByte next) := by
  have places : (List.range (front.length + 2)).filter (· != front.length) =
      List.range front.length ++ [front.length + 1] := by
    have before : (List.range front.length).filter (· != front.length) =
        List.range front.length := by
      rw [List.filter_eq_self]
      intro place member
      have := List.mem_range.mp member
      simp only [bne_iff_ne]
      omega
    rw [List.range_succ, List.range_succ, List.filter_append, List.filter_append, before]
    simp
  have held : (List.range front.length ++ [front.length + 1]).map
      (fun place => (front ++ colon :: next :: rest)[place]?) = (front ++ [next]).map some := by
    rw [List.map_append, List.map_append]
    congr 1
    · apply List.ext_getElem
      · simp
      · intro place within _
        have inside : place < front.length := by simpa using within
        simp [List.getElem?_append_left, inside]
    · simp
  rw [plainAround?, places, allM_of_held held, List.all_append, List.all_cons, List.all_nil,
    Bool.and_true]

/-- Behind the slashes of a comment, the bytes around the first colon decide as its characters. -/
theorem around_colon_eq {tool rest : List Char} (free : ∀ c ∈ tool, (c == ':') = false) :
    (if (utf8Bytes tool).length = 0 ∨
        (utf8Bytes (tool ++ ':' :: rest)).length ≤ (utf8Bytes tool).length + 1 then some false
      else plainAround? (utf8Bytes (tool ++ ':' :: rest)) (utf8Bytes tool).length) =
      some (match ':' :: rest with
        | _ :: next :: _ => !tool.isEmpty && tool.all isDirectiveChar && isDirectiveChar next
        | _ => false) := by
  have mark : String.utf8EncodeChar ':' = [58] := by decide
  cases rest with
  | nil =>
    -- The colon is the last byte.
    rw [if_pos]
    right
    simp [mark]
  | cons next rest =>
    obtain ⟨byte, more, bytes, first⟩ := readsAscii_isDirectiveByte.exists_first next
    have split : utf8Bytes (tool ++ ':' :: next :: rest) =
        utf8Bytes tool ++ 58 :: byte :: (more ++ utf8Bytes rest) := by
      simp [mark, bytes]
    cases tool with
    | nil => rfl
    | cons c tool =>
      have size : 0 < (utf8Bytes (c :: tool)).length := by
        rw [utf8Bytes_cons, List.length_append]
        exact Nat.add_pos_left (List.length_pos_of_ne_nil String.utf8EncodeChar_ne_nil) _
      have within : ¬(utf8Bytes (c :: tool ++ ':' :: next :: rest)).length ≤
          (utf8Bytes (c :: tool)).length + 1 := by
        rw [split, List.length_append, List.length_cons, List.length_cons]
        omega
      rw [if_neg (by omega), split, plainAround?_append, readsAscii_isDirectiveByte.all_utf8Bytes,
        first]
      rfl

/-- The bytes of a comment decide whether it is a directive, and none is asked for in vain. -/
theorem directiveByBytes?_toUTF8 (comment : String) :
    directiveByBytes? comment.toUTF8.data.toList = some (isDirective comment) := by
  have slashesAscii : ∀ d ∈ "//".toList, d.toNat < 128 := by simp
  have lineAscii : ∀ d ∈ "line ".toList, d.toNat < 128 := by simp
  have colon : ReadsAscii (· == ':') (· == 58) := ReadsAscii.equals (d := ':') (by decide)
  rw [← utf8Bytes_toList, directiveByBytes?, isPrefixOf_utf8Bytes slashesAscii]
  by_cases slashes : "//".toList <+: comment.toList
  · obtain ⟨body, split⟩ := slashes
    have behind : (utf8Bytes comment.toList).drop 2 = utf8Bytes body := by
      rw [← split, utf8Bytes_append]
      exact List.drop_left' rfl
    have front : afterPrefix? ['/', '/'] comment.toList = some body := by
      rw [← split]
      exact afterPrefix?_append _ body
    have leads : "//".toList.isPrefixOf comment.toList = true :=
      List.isPrefixOf_iff_prefix.mpr ⟨body, split⟩
    simp only [leads, Bool.not_true, Bool.false_eq_true, if_false, behind,
      isPrefixOf_utf8Bytes lineAscii, isDirective, front]
    by_cases line : ("line ".toList.isPrefixOf body) = true
    · rw [if_pos line, if_pos line]
    · rw [if_neg line, if_neg line]
      rcases eq_or_split_colon body with free | ⟨tool, rest, free, rfl⟩
      · rw [colon.findIdx?_utf8Bytes_none free, leadingRun_no_colon free]
      · rw [colon.findIdx?_utf8Bytes free rfl, leadingRun_colon free]
        exact around_colon_eq free
  · have other : "//".toList.isPrefixOf comment.toList = false := by
      rw [Bool.eq_false_iff]
      exact fun leads => slashes (List.isPrefixOf_iff_prefix.mp leads)
    have none : afterPrefix? ['/', '/'] comment.toList = none := by
      rw [afterPrefix?]
      exact if_neg (Bool.eq_false_iff.mp other)
    rw [other, isDirective, none]
    rfl

end Bytes

section Spelled

variable {text : List Char}

/-- A directive has its text right behind two slashes. -/
theorem IsDirectiveText.head_ne (spelled : IsDirectiveText text) :
    ¬"/*".toList <+: text ∧ ¬"// ".toList <+: text := by
  have blank : ¬IsLowerOrDigit ' ' := by
    simp only [IsLowerOrDigit]
    decide
  cases spelled with
  | line rest => constructor <;> rintro ⟨more, same⟩ <;> simp at same
  | tool named lower follows rest =>
    obtain ⟨c, tool, rfl⟩ := List.exists_cons_of_ne_nil named
    constructor
    · rintro ⟨more, same⟩
      simp at same
    · rintro ⟨more, same⟩
      -- The third character is a blank, but the first of a tool.
      have third : ' ' = c := by
        have held := congrArg (fun shown : List Char => shown[2]?) same
        exact Option.some.inj held
      exact blank (third ▸ lower c List.mem_cons_self)

/-- Up to the character behind its first colon, a directive is ASCII, or it is a line directive. -/
theorem IsDirectiveText.ascii (spelled : IsDirectiveText text)
    (other : ¬"//line ".toList <+: text) {before after : List Char}
    (split : text = before ++ ':' :: after) (first : ':' ∉ before) :
    ∀ c, c ∈ before ∨ after.head? = some c → c.toNat < 128 := by
  cases spelled with
  | line rest => exact absurd (List.prefix_append _ rest) other
  | @tool tool next named lower follows rest =>
    have slashes : ∀ c ∈ "//".toList, (c == ':') = false ∧ c.toNat < 128 := by simp
    have free : ∀ c ∈ "//".toList ++ tool, (c == ':') = false := by
      intro c member
      rcases List.mem_append.mp member with slash | inside
      · exact (slashes c slash).1
      · exact free_of_lower lower c inside
    have free' : ∀ c ∈ before, (c == ':') = false :=
      fun c member => beq_false_of_ne fun same => first (same ▸ member)
    rw [← List.append_assoc] at split
    obtain ⟨rfl, rfl⟩ := split_colon_unique free free' split
    rintro c (held | held)
    · rcases List.mem_append.mp held with slash | inside
      · exact (slashes c slash).2
      · exact (lower c inside).ascii
    · obtain rfl := Option.some.inj held
      exact follows.ascii

/--
Directives are exactly the comments of their grammar, and their bytes tell them without looking past
the end.

No block comment is one, nor a comment that begins with a blank. In any but a line directive, all
characters up to the one behind the first colon are ASCII.
-/
theorem directives_spelled (comment : String) :
    (isDirective comment = true ↔ IsDirectiveText comment.toList) ∧
    directiveByBytes? comment.toUTF8.data.toList = some (isDirective comment) ∧
    ("/*".toList <+: comment.toList ∨ "// ".toList <+: comment.toList →
      isDirective comment = false) ∧
    (¬"//line ".toList <+: comment.toList → ∀ before after,
      comment.toList = before ++ ':' :: after → ':' ∉ before →
      (∃ c, (c ∈ before ∨ after.head? = some c) ∧ 128 ≤ c.toNat) →
      isDirective comment = false) := by
  refine ⟨isDirective_iff comment, directiveByBytes?_toUTF8 comment, ?_, ?_⟩
  · intro leads
    rw [Bool.eq_false_iff]
    intro directive
    obtain ⟨block, blank⟩ := ((isDirective_iff comment).mp directive).head_ne
    exact leads.elim block blank
  · rintro other before after split first ⟨c, near, wide⟩
    rw [Bool.eq_false_iff]
    intro directive
    have := ((isDirective_iff comment).mp directive).ascii other split first c near
    omega

/-- A line directive may have any character in front of its first colon. -/
theorem directive_with_wide_line : isDirective "//line é:1" = true ∧
    "//line é:1".toList = "//line é".toList ++ ':' :: "1".toList ∧ ':' ∉ "//line é".toList ∧
    'é' ∈ "//line é".toList ∧ 128 ≤ 'é'.toNat := by
  decide

end Spelled

end Scaffold.Go
