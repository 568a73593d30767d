import Mathlib.Data.List.Basic
import Scaffold.Text.Bytes

/-! Texts looked through byte by byte: what is asked about an ASCII character, any byte answers. -/

namespace Scaffold

/-- The bytes of a text. -/
def utf8Bytes (text : List Char) : List UInt8 :=
  text.flatMap String.utf8EncodeChar

@[simp] theorem utf8Bytes_nil : utf8Bytes [] = [] :=
  rfl

@[simp] theorem utf8Bytes_cons (c : Char) (rest : List Char) :
    utf8Bytes (c :: rest) = String.utf8EncodeChar c ++ utf8Bytes rest :=
  rfl

@[simp] theorem utf8Bytes_append (first second : List Char) :
    utf8Bytes (first ++ second) = utf8Bytes first ++ utf8Bytes second :=
  List.flatMap_append

/-- A string holds the bytes of its characters. -/
theorem utf8Bytes_toList (text : String) :
    utf8Bytes text.toList = text.toUTF8.data.toList := by
  conv_rhs => rw [← String.ofList_toList (s := text), String.toUTF8_eq_toByteArray,
    String.toByteArray_ofList, List.utf8Encode, List.data_toByteArray]
  rfl

/-- An ASCII character is one byte, its own number. -/
theorem utf8EncodeChar_ascii {c : Char} (ascii : c.toNat < 128) :
    String.utf8EncodeChar c = [UInt8.ofNat c.toNat] := by
  have low : c.val.toNat ≤ 127 := Nat.le_of_lt_succ ascii
  simp only [String.utf8EncodeChar, if_pos low]
  rfl

/-- All bytes of any other character lie above those of ASCII characters. -/
theorem le_of_mem_utf8EncodeChar {c : Char} (wide : 128 ≤ c.toNat) {byte : UInt8}
    (member : byte ∈ String.utf8EncodeChar c) : 128 ≤ byte.toNat := by
  -- Every byte is a payload of at most seven bits with a mark of at least 128 added to it.
  have high : ¬c.val.toNat ≤ 127 := Nat.not_le.mpr wide
  simp only [String.utf8EncodeChar, if_neg high] at member
  split at member
  · simp only [List.mem_cons, List.not_mem_nil, or_false] at member
    rcases member with rfl | rfl <;> simp only [UInt8.toNat_ofNat'] <;> omega
  · split at member
    · simp only [List.mem_cons, List.not_mem_nil, or_false] at member
      rcases member with rfl | rfl | rfl <;> simp only [UInt8.toNat_ofNat'] <;> omega
    · simp only [List.mem_cons, List.not_mem_nil, or_false] at member
      rcases member with rfl | rfl | rfl | rfl <;> simp only [UInt8.toNat_ofNat'] <;> omega

/-- A test of characters that only ASCII ones pass, and the same test of bytes. -/
structure ReadsAscii (test : Char → Bool) (onBytes : UInt8 → Bool) : Prop where
  ascii : ∀ c : Char, c.toNat < 128 → onBytes (UInt8.ofNat c.toNat) = test c
  wide : ∀ c : Char, 128 ≤ c.toNat → test c = false
  high : ∀ byte : UInt8, 128 ≤ byte.toNat → onBytes byte = false

namespace ReadsAscii

variable {test : Char → Bool} {onBytes : UInt8 → Bool}

/-- Looking for one ASCII character. -/
theorem equals {d : Char} (ascii : d.toNat < 128) :
    ReadsAscii (· == d) (· == UInt8.ofNat d.toNat) where
  ascii := by
    intro c low
    have whole : UInt8.ofNat c.toNat = UInt8.ofNat d.toNat ↔ c = d := by
      rw [← UInt8.toNat_inj, UInt8.toNat_ofNat', UInt8.toNat_ofNat', ← Char.toNat_inj]
      omega
    rw [Bool.eq_iff_iff, beq_iff_eq, beq_iff_eq, whole]
  wide := by
    intro c wide
    apply beq_false_of_ne
    rintro rfl
    omega
  high := by
    intro byte high
    apply beq_false_of_ne
    rintro rfl
    rw [UInt8.toNat_ofNat'] at high
    omega

/-- Each byte of a character tests like the character. -/
theorem byte (reads : ReadsAscii test onBytes) {c : Char} {byte : UInt8}
    (member : byte ∈ String.utf8EncodeChar c) : onBytes byte = test c := by
  by_cases ascii : c.toNat < 128
  · rw [utf8EncodeChar_ascii ascii] at member
    obtain rfl := List.mem_singleton.mp member
    exact reads.ascii c ascii
  · have wide : 128 ≤ c.toNat := Nat.le_of_not_lt ascii
    rw [reads.wide c wide]
    exact reads.high byte (le_of_mem_utf8EncodeChar wide member)

/-- The first byte of a character tests like the character. -/
theorem exists_first (reads : ReadsAscii test onBytes) (c : Char) :
    ∃ byte more, String.utf8EncodeChar c = byte :: more ∧ onBytes byte = test c := by
  obtain ⟨byte, more, bytes⟩ := List.exists_cons_of_ne_nil (String.utf8EncodeChar_ne_nil (c := c))
  have member : byte ∈ String.utf8EncodeChar c := by
    rw [bytes]
    exact List.mem_cons_self
  exact ⟨byte, more, bytes, reads.byte member⟩

/-- A text passes a test throughout if its bytes do. -/
theorem all_utf8Bytes (reads : ReadsAscii test onBytes) (text : List Char) :
    (utf8Bytes text).all onBytes = text.all test := by
  induction text with
  | nil => rfl
  | cons c rest ih =>
    have bytes : (String.utf8EncodeChar c).all onBytes = test c := by
      rw [Bool.eq_iff_iff, List.all_eq_true]
      constructor
      · intro all
        obtain ⟨first, member⟩ := List.exists_mem_of_ne_nil _ String.utf8EncodeChar_ne_nil
        rw [← reads.byte member]
        exact all first member
      · intro passes byte member
        rw [reads.byte member, passes]
    rw [utf8Bytes_cons, List.all_append, bytes, ih, List.all_cons]

/-- A text without a character that passes a test has no byte that passes it. -/
theorem findIdx?_utf8Bytes_none (reads : ReadsAscii test onBytes) {text : List Char}
    (fails : ∀ d ∈ text, test d = false) : (utf8Bytes text).findIdx? onBytes = none := by
  rw [List.findIdx?_eq_none_iff]
  intro byte member
  obtain ⟨d, among, inside⟩ := List.mem_flatMap.mp member
  rw [reads.byte inside, fails d among]

/-- In front of the first character that passes a test, no byte passes it. -/
theorem findIdx?_utf8Bytes (reads : ReadsAscii test onBytes) {front rest : List Char} {c : Char}
    (fails : ∀ d ∈ front, test d = false) (passes : test c = true) :
    (utf8Bytes (front ++ c :: rest)).findIdx? onBytes = some (utf8Bytes front).length := by
  have silent := reads.findIdx?_utf8Bytes_none fails
  obtain ⟨byte, more, bytes, here⟩ := reads.exists_first c
  rw [utf8Bytes_append, utf8Bytes_cons, bytes, List.findIdx?_append, silent, List.cons_append,
    List.findIdx?_cons, here, passes]
  simp

end ReadsAscii

/-- A text begins with ASCII characters if its bytes begin with theirs. -/
theorem isPrefixOf_utf8Bytes {lead : List Char} (ascii : ∀ d ∈ lead, d.toNat < 128)
    (text : List Char) : (utf8Bytes lead).isPrefixOf (utf8Bytes text) = lead.isPrefixOf text := by
  induction lead generalizing text with
  | nil => rfl
  | cons d lead ih =>
    obtain ⟨low, others⟩ := List.forall_mem_cons.mp ascii
    cases text with
    | nil =>
      rw [utf8Bytes_cons, utf8EncodeChar_ascii low]
      rfl
    | cons c text =>
      obtain ⟨byte, more, bytes, first⟩ := (ReadsAscii.equals low).exists_first c
      rw [utf8Bytes_cons, utf8EncodeChar_ascii low, utf8Bytes_cons, bytes]
      show (UInt8.ofNat d.toNat == byte && (utf8Bytes lead).isPrefixOf (more ++ utf8Bytes text)) =
        (d == c && lead.isPrefixOf text)
      rw [Bool.beq_comm, first, Bool.beq_comm (a := d)]
      by_cases same : c = d
      · -- Where the characters agree, the byte is all of this one.
        subst same
        rw [utf8EncodeChar_ascii low] at bytes
        cases bytes
        rw [List.nil_append, ih others]
      · rw [beq_false_of_ne same, Bool.false_and, Bool.false_and]

end Scaffold
