import Scaffold.Proofs.Numbering
import Scaffold.Proofs.Test.Lines
import Scaffold.Proofs.Test.Planned

/-! How a test treats the results of a function: what it expects, binds, checks and compares. -/

namespace Scaffold

open Go

/-- What follows a character that two texts lack does not matter to the texts. -/
theorem lead_eq_of_append {first second : String} {c : Char} {rest other : List Char}
    (free : c ∉ first.toList) (free' : c ∉ second.toList)
    (same : first.toList ++ c :: rest = second.toList ++ c :: other) : first = second := by
  have cut : ∀ {lead : List Char} (rest : List Char), c ∉ lead →
      (lead ++ c :: rest).takeWhile (· != c) = lead := by
    intro lead rest free
    rw [List.takeWhile_append_of_pos fun d member => by
      simpa using fun same : d = c => free (same ▸ member)]
    simp
  rw [← String.toList_inj, ← cut rest free, same, cut other free']

section Numbered

variable {base : String} {index other : Nat}

/-- Numbered names are made of the base and of digits. -/
theorem mem_numberedName {c : Char} (member : c ∈ (numberedName base index).toList) :
    c ∈ base.toList ∨ c.isDigit = true := by
  rw [numberedName] at member
  split at member
  · exact .inl member
  · rw [String.toList_append, List.mem_append] at member
    exact member.imp_right isDigit_of_mem_toString

/-- A numbered name starts like its base. -/
theorem numberedName_char {place : Nat} {c : Char} (index : Nat)
    (held : base.toList[place]? = some c) : (numberedName base index).toList[place]? = some c := by
  rw [numberedName]
  split
  · exact held
  · exact char_append _ held

/-- Names numbered differently are different. -/
theorem numberedName_inj (same : numberedName base index = numberedName base other) :
    index = other := by
  have longer : ∀ number : Nat, base ≠ base ++ toString number := fun number equal =>
    toString_number_ne_empty number (String.append_right_inj base |>.mp
      (equal.symm.trans (String.append_empty).symm))
  rw [numberedName, numberedName] at same
  split at same <;> split at same
  · omega
  · exact absurd same (longer _)
  · exact absurd same.symm (longer _)
  · exact Nat.succ.inj (numbered_inj same)

/-- The name for an error is not a numbered one. -/
theorem numberedName_ne_err : numberedName base index ≠ base ++ "Err" := by
  intro same
  rw [numberedName] at same
  split at same
  · have length := congrArg String.length same
    simp at length
  · -- Behind the base there is a digit, not a letter.
    have digits := (String.append_right_inj base).mp same
    have letter : 'E' ∈ (toString (index + 1)).toList := by rw [digits]; decide
    have digit := isDigit_of_mem_toString letter
    exact absurd digit (by decide)

end Numbered

/-- Only a last error gets the name for errors. -/
theorem gotName_eq_gotErr_iff {index count : Nat} {isError : Bool} :
    gotName index count isError = "gotErr" ↔ index + 1 = count ∧ isError = true := by
  rw [gotName]
  split
  · rename_i last
    simpa using last
  · rename_i not
    simp only [Bool.and_eq_true, decide_eq_true_eq] at not
    exact ⟨fun same => absurd same numberedName_ne_err, fun last => absurd last not⟩

/-- The results of a function as a plan has them, under the names they are given. -/
def namedResults (written : ResolvedType → String) (results : List Var) : List Field :=
  results.mapIdx fun index result =>
    .named (gotName index results.length result.type.isError) (written result.type)

/-- Whether the last result is the error type. -/
def endsInErrorType (results : List Var) : Bool :=
  (results.getLast?.map fun result => result.type.isError).getD false

/-- The line that compares a result with what is expected of it. -/
def comparison (function got want : String) : String :=
  "t.Errorf(\"" ++ function ++ "() = %v, want %v\", " ++ got ++ ", tt." ++ want ++ ")"

/--
A test treats the results of a function as their types ask for.

A last error is expected as a flag, bound to a variable of its own and checked.
Every other result is expected as a field of its own type and compared under its own index.
-/
structure TreatsResults (written : ResolvedType → String) (results : List Var)
    (plan : TestPlan) : Prop where
  expected : plan.lines.count ⟨2, "wantErr bool"⟩ = if endsInErrorType results then 1 else 0
  bound : "gotErr" ∈ plan.target.results.map Field.name ↔ endsInErrorType results = true
  called : results ≠ [] →
    ∃ call, ⟨3, resultNames plan.target.results ++ " := " ++ call⟩ ∈ plan.lines
  checked : ∀ opening ∈ ["if gotErr != nil \x7b", "if tt.wantErr \x7b"],
    plan.lines.count ⟨3, opening⟩ = if endsInErrorType results then 1 else 0
  compared : ∀ index result, results[index]? = some result →
    ¬(index + 1 = results.length ∧ result.type.isError = true) →
    plan.lines.count ⟨2, wantName index ++ " " ++ written result.type⟩ = 1 ∧
    plan.lines.count ⟨4, comparison plan.target.name (numberedName "got" index)
      (wantName index)⟩ = 1
  used : ∀ field ∈ plan.target.results,
    ⟨3, "if " ++ field.name ++ " != nil \x7b"⟩ ∈ plan.lines ∨
      ∃ want, ⟨4, comparison plan.target.name field.name want⟩ ∈ plan.lines

section Lines

variable (plan : TestPlan)

/-- A receiver is made without looking at the results of the tested function. -/
theorem count_receiverLines_zero {text : String} (package : String) (receiver : Receiver)
    (starts : text.toList[0]? = some 'i') (ends : text.toList.getLast? = some '\x7b')
    (other : "if err != nil \x7b" ≠ text) : (receiverLines package receiver).count ⟨0, text⟩ = 0 := by
  have made : ∀ front : String, front ++ ")" ≠ text := fun front =>
    ne_of_last (last_append front (by decide : _ = some ')')) ends (by decide)
  have closing : "\x7d" ≠ text := ne_of_char (c := '\x7d') (by decide) starts (by decide)
  rw [receiverLines]
  split
  · rw [List.count_append, count_line_ne (made _)]
    split
    · rw [count_block_zero, count_line_ne other, count_line_ne closing]
    · rfl
  · have todo : "// TODO: construct the receiver type." ≠ text :=
      ne_of_char (c := '/') (by decide) starts (by decide)
    have declared : "var " ++ receiver.holder.name ++ " " ++ receiver.holder.type ≠ text :=
      ne_of_char (char_append _ (char_append _ (char_append _ (by decide : _ = some 'v'))))
        starts (by decide)
    rw [List.count_append, count_line_ne todo, count_line_ne declared]

/-- A call opens no block. -/
theorem count_callLine_zero {text : String} (ends : text.toList.getLast? = some '\x7b') :
    (callLine plan).count ⟨0, text⟩ = 0 := by
  have call : ∀ front : String, front ++ ")" ≠ text := fun front =>
    ne_of_last (last_append front (by decide : _ = some ')')) ends (by decide)
  rw [callLine]
  split
  · exact count_line_ne (call _)
  · rw [← String.append_assoc]
    exact count_line_ne (call _)

/-- A comparison opens one kind of block only. -/
theorem count_comparisonLines_zero {text : String} (target : Callee)
    (starts : text.toList[0]? = some 'i') (other : "if true \x7b" ≠ text) :
    (comparisonLines target).count ⟨0, text⟩ = 0 := by
  have todo : "// TODO: update the condition below to compare got with tt.want." ≠ text :=
    ne_of_char (c := '/') (by decide) starts (by decide)
  have closing : "\x7d" ≠ text := ne_of_char (c := '\x7d') (by decide) starts (by decide)
  rw [comparisonLines]
  by_cases none : target.results.length - (if target.endsInError then 1 else 0) = 0
  · rw [if_pos none, List.count_nil]
  · rw [if_neg none, List.count_append, count_line_ne todo, count_indexed_zero]
    intro index result _
    dsimp only
    rw [compareLines]
    split
    · rfl
    · rw [count_block_zero, count_line_ne other, count_line_ne closing]

/-- The checks of the error are the only blocks of their kind. -/
theorem count_lines_opening {text : String} (starts : text.toList[0]? = some 'i')
    (ends : text.toList.getLast? = some '\x7b') (made : "if err != nil \x7b" ≠ text)
    (compared : "if true \x7b" ≠ text) :
    plan.lines.count ⟨3, text⟩ = (errorLines plan.target).count ⟨0, text⟩ := by
  rw [count_lines_case, caseLines, List.count_append, List.count_append, List.count_append,
    count_callLine_zero plan ends, count_comparisonLines_zero _ starts compared]
  split
  · rw [count_receiverLines_zero _ _ starts ends made]
    omega
  · rw [List.count_nil]
    omega

/-- The error is checked when the last result is written as one. -/
theorem count_lines_check {opening : String}
    (either : opening ∈ ["if gotErr != nil \x7b", "if tt.wantErr \x7b"]) :
    plan.lines.count ⟨3, opening⟩ = if plan.target.endsInError then 1 else 0 := by
  simp only [List.mem_cons, List.not_mem_nil, or_false] at either
  rcases either with rfl | rfl <;>
    rw [count_lines_opening plan (by decide) (by decide) (by decide) (by decide), errorLines] <;>
    split <;> simp [*, List.count_append, count_block_zero, count_line]

/-- Only comparisons stand four blocks deep and start like one. -/
theorem count_lines_deepest {text : String} (starts : text.toList[0]? = some 't')
    (reports : text.toList[2]? = some 'E') :
    plan.lines.count ⟨4, text⟩ = (comparisonLines plan.target).count ⟨1, text⟩ := by
  have fatal : ∀ {front : String}, front.toList[2]? = some 'F' → ∀ rest, front ++ rest ≠ text :=
    fun third rest => ne_of_char (char_append rest third) reports (by decide)
  have receiver : ∀ (package : String) (receiver : Receiver),
      (receiverLines package receiver).count ⟨1, text⟩ = 0 := by
    intro package receiver
    have made : "t.Fatalf(\"could not construct receiver type: %v\", err)" ≠ text :=
      ne_of_char (c := 'F') (by decide) reports (by decide)
    rw [receiverLines]
    split
    · rw [List.count_append, count_line_succ]
      split
      · rw [count_block_succ, count_line_ne made]
      · rfl
    · rw [List.count_append, count_line_succ, count_line_succ]
  have call : (callLine plan).count ⟨1, text⟩ = 0 := by
    rw [callLine]
    split <;> exact count_line_succ 0 _ _
  have error : (errorLines plan.target).count ⟨1, text⟩ = 0 := by
    have opening : "if !tt.wantErr \x7b" ≠ text :=
      ne_of_char (c := 'i') (by decide) starts (by decide)
    have closing : "\x7d" ≠ text := ne_of_char (c := '\x7d') (by decide) starts (by decide)
    have leave : "return" ≠ text := ne_of_char (c := 'r') (by decide) starts (by decide)
    rw [errorLines]
    split
    · rw [List.count_append, count_block_succ, count_block_succ, List.count_append,
        count_block_zero, count_line_ne opening, count_line_ne closing, count_line_ne leave,
        String.append_assoc, count_line_ne (fatal (by decide) _)]
    · rfl
  rw [count_lines_case, caseLines, List.count_append, List.count_append, List.count_append, call,
    error]
  split
  · rw [receiver]
    omega
  · rw [List.count_nil]
    omega

end Lines

section Named

variable {written : ResolvedType → String} {results : List Var} {index : Nat} {result : Var}

/-- Each result has its name and its type in the plan. -/
theorem getElem?_namedResults (held : results[index]? = some result) :
    (namedResults written results)[index]? =
      some (.named (gotName index results.length result.type.isError) (written result.type)) := by
  rw [namedResults, List.getElem?_mapIdx, held]
  rfl

/-- What a plan has at some place is the result there. -/
theorem of_getElem?_namedResults {field : Field}
    (held : (namedResults written results)[index]? = some field) :
    ∃ result, results[index]? = some result ∧
      field = .named (gotName index results.length result.type.isError) (written result.type) := by
  rw [namedResults, List.getElem?_mapIdx] at held
  obtain ⟨result, there, rfl⟩ := Option.map_eq_some_iff.mp held
  exact ⟨result, there, rfl⟩

/-- The last result decides. -/
theorem endsInErrorType_of_last (held : results[index]? = some result)
    (last : index + 1 = results.length) : endsInErrorType results = result.type.isError := by
  rw [endsInErrorType, List.getLast?_eq_getElem?, ← last, Nat.add_sub_cancel, held]
  rfl

/-- A list that ends in an error has a last result. -/
theorem exists_of_endsInErrorType (ends : endsInErrorType results = true) :
    ∃ index result, results[index]? = some result ∧ index + 1 = results.length ∧
      result.type.isError = true := by
  cases held : results.getLast? with
  | none =>
    rw [endsInErrorType, held] at ends
    cases ends
  | some result =>
    rw [List.getLast?_eq_getElem?] at held
    have within := (List.getElem?_eq_some_iff.mp held).1
    have last : results.length - 1 + 1 = results.length := by omega
    exact ⟨_, result, held, last, endsInErrorType_of_last held last ▸ ends⟩

/-- A declared expectation is not the flag for errors. -/
theorem wantName_ne (type : String) : "wantErr bool" ≠ wantName index ++ " " ++ type := by
  intro same
  have lists := congrArg String.toList same
  have blank : ' ' ∉ (wantName index).toList := fun member =>
    (mem_numberedName member).elim (by decide) (by decide)
  rw [String.toList_append, String.toList_append, List.append_assoc] at lists
  have free : ' ' ∉ "wantErr".toList := by decide
  exact numberedName_ne_err (lead_eq_of_append free blank lists).symm

/-- Expectations under different indices are declared differently. -/
theorem wantName_declaration_inj {other : Nat} {type type' : String}
    (same : wantName index ++ " " ++ type = wantName other ++ " " ++ type') : index = other := by
  have lists := congrArg String.toList same
  have blank : ∀ index, ' ' ∉ (wantName index).toList := fun index member =>
    (mem_numberedName member).elim (by decide) (by decide)
  simp only [String.toList_append, List.append_assoc] at lists
  exact numberedName_inj (lead_eq_of_append (blank index) (blank other) lists)

/-- Comparisons under different indices are written differently. -/
theorem comparison_inj {other : Nat} {function want want' : String}
    (same : comparison function (numberedName "got" index) want =
      comparison function (numberedName "got" other) want') : index = other := by
  have lists := congrArg String.toList same
  have comma : ∀ index, ',' ∉ (numberedName "got" index).toList := fun index member =>
    (mem_numberedName member).elim (by decide) (by decide)
  simp only [comparison, String.toList_append, List.append_assoc, List.append_cancel_left_eq]
    at lists
  exact numberedName_inj (lead_eq_of_append (comma index) (comma other) lists)

/-- Every comparison starts alike. -/
theorem comparison_char {place : Nat} {c : Char} (function got want : String)
    (held : "t.Errorf(\"".toList[place]? = some c) :
    (comparison function got want).toList[place]? = some c :=
  char_append _ (char_append _ (char_append _ (char_append _ (char_append _ (char_append _ held)))))

/-- The flag for errors is declared when there is an error at the end. -/
theorem count_wantLines_flag : (wantLines (namedResults written results)).count
    ⟨0, "wantErr bool"⟩ = if endsInErrorType results then 1 else 0 := by
  -- Whatever is not the error at the end is declared under a number.
  have ordinary : ∀ index field, (namedResults written results)[index]? = some field →
      field.name ≠ "gotErr" →
      (if field.name == "gotErr" then line "wantErr bool"
        else line (wantName index ++ " " ++ field.type)).count ⟨0, "wantErr bool"⟩ = 0 := by
    intro index field _ not
    rw [if_neg (by simpa using not), count_line_ne (wantName_ne _).symm]
  rw [wantLines]
  split
  · rename_i ends
    obtain ⟨index, result, held, last, error⟩ := exists_of_endsInErrorType ends
    have name : gotName index results.length result.type.isError = "gotErr" :=
      gotName_eq_gotErr_iff.mpr ⟨last, error⟩
    rw [count_indexed (getElem?_namedResults held)]
    · dsimp only [Field.named]
      rw [name]
      rfl
    · intro other field there differs
      obtain ⟨result, _, rfl⟩ := of_getElem?_namedResults there
      refine ordinary other _ there fun same => ?_
      have := (gotName_eq_gotErr_iff.mp same).1
      omega
  · rename_i none
    rw [count_indexed_zero]
    intro index field there
    obtain ⟨result, held, rfl⟩ := of_getElem?_namedResults there
    refine ordinary index _ there fun same => none ?_
    obtain ⟨last, error⟩ := gotName_eq_gotErr_iff.mp same
    rw [endsInErrorType_of_last held last, error]

section Ordinary

variable (held : results[index]? = some result)
  (ordinary : ¬(index + 1 = results.length ∧ result.type.isError = true))

include held ordinary

/-- A result that is not the error at the end keeps its number in the plan. -/
theorem getElem?_namedResults_of_ordinary : (namedResults written results)[index]? =
    some (.named (numberedName "got" index) (written result.type)) := by
  rw [getElem?_namedResults held, gotName, if_neg (by simpa using ordinary)]

/-- Every other result is expected once. -/
theorem count_wantLines_ordinary : (wantLines (namedResults written results)).count
    ⟨0, wantName index ++ " " ++ written result.type⟩ = 1 := by
  have number : (numberedName "got" index == "gotErr") = false :=
    beq_eq_false_iff_ne.mpr numberedName_ne_err
  rw [wantLines, count_indexed (getElem?_namedResults_of_ordinary held ordinary)]
  · dsimp only [Field.named]
    rw [number]
    exact List.count_singleton_self
  · intro other field _ differs
    dsimp only
    split
    · exact count_line_ne (wantName_ne _)
    · exact count_line_ne fun same => differs (wantName_declaration_inj same)

/-- Every other result is compared once, if the error is told apart. -/
theorem count_comparisonLines_ordinary {target : Callee}
    (given : target.results = namedResults written results)
    (spelled : target.endsInError = endsInErrorType results) :
    (comparisonLines target).count
      ⟨1, comparison target.name (numberedName "got" index) (wantName index)⟩ = 1 := by
  have within := (List.getElem?_eq_some_iff.mp held).1
  have length : target.results.length = results.length := by
    rw [given, namedResults, List.length_mapIdx]
  have some : ¬target.results.length - (if target.endsInError then 1 else 0) = 0 := by
    rw [length, spelled]
    split
    · rename_i ends
      obtain ⟨last, error, there, final, isError⟩ := exists_of_endsInErrorType ends
      -- The error at the end stands behind the result.
      have differs : index ≠ last := by
        rintro rfl
        exact ordinary ⟨final, Option.some.inj (there.symm.trans held) ▸ isError⟩
      omega
    · omega
  have number : (numberedName "got" index == "gotErr") = false :=
    beq_eq_false_iff_ne.mpr numberedName_ne_err
  rw [comparisonLines, if_neg some, List.count_append, count_line_succ, given,
    count_indexed (getElem?_namedResults_of_ordinary held ordinary)]
  · dsimp only [Field.named]
    rw [compareLines, number, Nat.zero_add]
    exact List.count_singleton_self
  · intro other field there differs
    obtain ⟨compared, _, rfl⟩ := of_getElem?_namedResults there
    dsimp only [Field.named]
    rw [compareLines]
    split
    · rfl
    · rename_i not
      rw [count_block_succ]
      refine count_line_ne fun same => differs ?_
      have numbered : gotName other results.length compared.type.isError =
          numberedName "got" other := if_neg fun last => not (beq_iff_eq.mpr (if_pos last))
      exact comparison_inj (numbered ▸ same)

end Ordinary

/-- No parameter is declared just like something that is expected of the results. -/
structure ApartFromResults (written : ResolvedType → String) (results : List Var)
    (params : List Field) : Prop where
  flag : "wantErr bool" ∉ params.map Field.declaration
  others : ∀ index result, results[index]? = some result →
    ¬(index + 1 = results.length ∧ result.type.isError = true) →
    wantName index ++ " " ++ written result.type ∉ params.map Field.declaration

/-- A call with results is a line of the test. -/
theorem exists_call (plan : TestPlan) (some : plan.target.results ≠ []) :
    ∃ call, ⟨3, resultNames plan.target.results ++ " := " ++ call⟩ ∈ plan.lines := by
  have called : ∃ call, callLine plan = line (resultNames plan.target.results ++ " := " ++ call) := by
    rw [callLine, if_neg (by simpa using some)]
    exact ⟨_, rfl⟩
  obtain ⟨call, called⟩ := called
  refine ⟨call, List.count_pos_iff.mp ?_⟩
  rw [count_lines_case, List.count_pos_iff, caseLines, called]
  simp [line]

/-- Expectations are counted among the declarations, parameters included. -/
theorem count_lines_want {plan : TestPlan} {text : String} (wants : text.toList[0]? = some 'w') :
    plan.lines.count ⟨2, text⟩ = (plan.params.map Field.declaration).count text +
      (wantLines plan.target.results).count ⟨0, text⟩ := by
  rw [count_lines_field plan wants, count_fieldLines plan wants]

theorem wantName_declaration_starts (index : Nat) (type : String) :
    (wantName index ++ " " ++ type).toList[0]? = some 'w' :=
  char_append _ (char_append _ (numberedName_char index rfl))

/--
Results are treated as their types ask for under two conditions.

The last one is written as an error exactly when it is one, and no parameter is in the way.
-/
theorem treatsResults_of_named {plan : TestPlan}
    (given : plan.target.results = namedResults written results) :
    TreatsResults written results plan ↔
      plan.target.endsInError = endsInErrorType results ∧
        ApartFromResults written results plan.params := by
  constructor
  · intro treats
    refine ⟨?_, ?_, ?_⟩
    · have once := treats.checked "if tt.wantErr \x7b" (by simp)
      rw [count_lines_check plan (by simp)] at once
      split at once <;> split at once <;> simp_all
    · have once := treats.expected
      rw [count_lines_want (by decide), given, count_wantLines_flag] at once
      exact List.count_eq_zero.mp (by omega)
    · intro index result held ordinary
      have once := (treats.compared index result held ordinary).1
      rw [count_lines_want (wantName_declaration_starts _ _), given,
        count_wantLines_ordinary held ordinary] at once
      exact List.count_eq_zero.mp (by omega)
  · rintro ⟨spelled, apart⟩
    have checked : ∀ opening ∈ ["if gotErr != nil \x7b", "if tt.wantErr \x7b"],
        plan.lines.count ⟨3, opening⟩ = if endsInErrorType results then 1 else 0 :=
      fun opening either => spelled ▸ count_lines_check plan either
    have compared : ∀ index result, results[index]? = some result →
        ¬(index + 1 = results.length ∧ result.type.isError = true) →
        plan.lines.count ⟨4, comparison plan.target.name (numberedName "got" index)
          (wantName index)⟩ = 1 := by
      intro index result held ordinary
      rw [count_lines_deepest plan (comparison_char _ _ _ rfl) (comparison_char _ _ _ rfl)]
      exact count_comparisonLines_ordinary held ordinary given spelled
    constructor
    · rw [count_lines_want (by decide), given, count_wantLines_flag,
        List.count_eq_zero.mpr apart.flag, Nat.zero_add]
    · rw [given, List.mem_map]
      constructor
      · rintro ⟨field, member, name⟩
        obtain ⟨index, there⟩ := List.mem_iff_getElem?.mp member
        obtain ⟨result, held, rfl⟩ := of_getElem?_namedResults there
        obtain ⟨last, error⟩ := gotName_eq_gotErr_iff.mp name
        rw [endsInErrorType_of_last held last, error]
      · intro ends
        obtain ⟨index, result, held, last, error⟩ := exists_of_endsInErrorType ends
        exact ⟨_, List.mem_of_getElem? (getElem?_namedResults held),
          gotName_eq_gotErr_iff.mpr ⟨last, error⟩⟩
    · intro some
      refine exists_call plan fun none => some (List.eq_nil_of_length_eq_zero ?_)
      have lengths := congrArg List.length (given.symm.trans none)
      rwa [namedResults, List.length_mapIdx] at lengths
    · exact checked
    · intro index result held ordinary
      refine ⟨?_, compared index result held ordinary⟩
      rw [count_lines_want (wantName_declaration_starts _ _), given,
        count_wantLines_ordinary held ordinary,
        List.count_eq_zero.mpr (apart.others index result held ordinary), Nat.zero_add]
    · intro field member
      rw [given] at member
      obtain ⟨index, there⟩ := List.mem_iff_getElem?.mp member
      obtain ⟨result, held, rfl⟩ := of_getElem?_namedResults there
      by_cases error : index + 1 = results.length ∧ result.type.isError = true
      · -- The error at the end is checked.
        refine .inl (List.count_pos_iff.mp ?_)
        rw [Field.named, gotName_eq_gotErr_iff.mpr error]
        have once := checked "if gotErr != nil \x7b" (by simp)
        rw [endsInErrorType_of_last held error.1, error.2] at once
        exact once ▸ Nat.one_pos
      · -- Every other result is compared.
        refine .inr ⟨wantName index, List.count_pos_iff.mp ?_⟩
        rw [Field.named, gotName, if_neg (by simpa using error)]
        exact compared index result held error ▸ Nat.one_pos

end Named

/-- Drafted results are the results under their names. -/
theorem map_written_resultDraftsFrom (qualifier : PackageRef → String)
    (name : Nat → Bool → String) (results : List Var) (index : Nat) :
    (resultDraftsFrom name index results).map (FieldDraft.written qualifier) =
      results.mapIdx fun later result => .named (name (index + later) result.type.isError)
        (writeSnippets qualifier (typeSnippets result.type)) := by
  induction results generalizing index with
  | nil => rfl
  | cons result rest ih =>
    rw [resultDraftsFrom, List.map_cons, ih, List.mapIdx_cons]
    simp only [Nat.add_assoc, Nat.add_comm 1]
    rfl

/-- The text of a type in a test, once some imports are noted. -/
def Viewpoint.typeText (view : Viewpoint) (extra : ImportSet) (type : ResolvedType) : String :=
  writeSnippets (view.qualifiersIn extra) (typeSnippets type)

/-- The results of a planned test are those of the function, under their names. -/
theorem results_of_planned {subject : Subject} {site : TestSite} {function : Function}
    {draft : PlanDraft} {extra : ImportSet}
    (drafted : IsDrafted subject site function draft extra) :
    (draft.separated.written ((viewpointOf subject site).qualifiersIn extra)).target.results =
      namedResults ((viewpointOf subject site).typeText extra) function.signature.results := by
  obtain ⟨name, choice, -, -, rfl⟩ := drafted.drafted
  have results := map_written_resultDraftsFrom ((viewpointOf subject site).qualifiersIn extra)
    (fun index isError => gotName index function.signature.results.length isError)
    function.signature.results 0
  simp only [Nat.zero_add] at results
  exact results

/--
A planned test treats results as their types ask for under two conditions.

The last result is written as an error exactly when it is the error type, and no parameter is
declared just like an expected result.
-/
theorem treatsResults_iff {subject : Subject} {site : TestSite} {function : Function}
    {plan : TestPlan} {imports : List Import}
    (planned : planTest subject site function = .ok (plan, imports)) :
    ∃ draft extra, IsDrafted subject site function draft extra ∧ imports = neededImports extra ∧
      (TreatsResults ((viewpointOf subject site).typeText extra) function.signature.results plan ↔
        plan.target.endsInError = endsInErrorType function.signature.results ∧
          ApartFromResults ((viewpointOf subject site).typeText extra) function.signature.results
            plan.params) := by
  obtain ⟨draft, extra, drafted, rfl, rfl⟩ := planTest_eq_ok planned
  exact ⟨draft, extra, drafted, rfl, treatsResults_of_named (results_of_planned drafted)⟩

/-- The error type is written by its name. -/
@[simp] theorem Viewpoint.typeText_error (view : Viewpoint) (extra : ImportSet) :
    view.typeText extra .error = "error" := by
  rw [typeText, typeSnippets, ResolvedType.pieces]
  rfl

/-- Another name for a type is written for it. -/
@[simp] theorem Viewpoint.typeText_aliased (view : Viewpoint) (extra : ImportSet)
    (package : PackageRef) (name : String) (target : ResolvedType) :
    view.typeText extra (.aliased package name target) =
      qualifiedName (view.qualifiersIn extra package) name := by
  rw [typeText, typeSnippets, ResolvedType.pieces]
  exact String.append_empty

/-- What is written last decides whether a test ends in an error. -/
theorem endsInError_of_last {target : Callee} {written : ResolvedType → String}
    {results : List Var} {index : Nat} {result : Var}
    (given : target.results = namedResults written results)
    (held : results[index]? = some result) (last : index + 1 = results.length) :
    target.endsInError = (written result.type == "error") := by
  have final : (namedResults written results).getLast? = (namedResults written results)[index]? := by
    rw [List.getLast?_eq_getElem?, namedResults, List.length_mapIdx, ← last, Nat.add_sub_cancel]
  rw [Callee.endsInError, given, final, getElem?_namedResults held]
  rfl

/-- A module of one package with two functions: one gives an error under another name for it. -/
def errorFunctions : FileTree :=
  ⟨[(⟨"go.mod"⟩, "module m"), (⟨"p.go"⟩,
    "package p\ntype E = error\nfunc F() E { return nil }\nfunc G() (int, error) { return 0, nil }")]⟩

/-- Whether the results are a value and an error. -/
def areValueAndError : List Var → Bool
  | [_, ⟨_, .error⟩] => true
  | _ => false

theorem treatsResults_iff_errorFunctions : ∃ found,
    plannedAt errorFunctions ⟨⟨"p.go"⟩, .point ⟨3, 6⟩⟩ = .ok found ∧
    endsInErrorType found.function.signature.results = true ∧
    ∃ written, TreatsResults written found.function.signature.results found.plan := by
  obtain ⟨found, located, checked⟩ := exists_plannedAt errorFunctions
    ⟨⟨"p.go"⟩, .point ⟨3, 6⟩⟩
    (fun found => found.plan.params.isEmpty && areValueAndError found.function.signature.results)
    (by decide +kernel)
  rw [Bool.and_eq_true, List.isEmpty_iff] at checked
  obtain ⟨none, two⟩ := checked
  unfold areValueAndError at two
  split at two
  · rename_i first name same
    have planned := planTest_of_plannedAt located
    obtain ⟨draft, extra, drafted, -, treats⟩ := treatsResults_iff planned
    obtain ⟨draft', extra', drafted', whole, -⟩ := planTest_eq_ok planned
    have last : found.function.signature.results[1]? = some ⟨name, .error⟩ := by rw [same]; rfl
    have error : found.plan.target.endsInError = true := by
      rw [whole, endsInError_of_last (results_of_planned drafted') last (by rw [same]; rfl),
        Viewpoint.typeText_error]
      rfl
    refine ⟨found, located, by rw [same]; rfl, _, treats.mpr ⟨by rw [error, same]; rfl, ?_⟩⟩
    rw [none]
    exact ⟨by simp, by simp⟩
  · cases two

/-- Whether the only result is an error whose type has another name. -/
def isAliasedError (other : String) : List Var → Bool
  | [⟨_, .aliased _ name .error⟩] => name == other
  | _ => false

/-- A result whose type is another name for the error type is bound as an error and not checked. -/
theorem not_treatsResults_alias : ∃ found,
    plannedAt errorFunctions ⟨⟨"p.go"⟩, .point ⟨2, 6⟩⟩ = .ok found ∧
    endsInErrorType found.function.signature.results = true ∧
    ∀ written, ¬TreatsResults written found.function.signature.results found.plan := by
  obtain ⟨found, located, checked⟩ := exists_plannedAt errorFunctions
    ⟨⟨"p.go"⟩, .point ⟨2, 6⟩⟩
    (fun found => isAliasedError "E" found.function.signature.results) (by decide +kernel)
  unfold isAliasedError at checked
  split at checked
  · rename_i bound package name same
    obtain rfl := beq_iff_eq.mp checked
    obtain ⟨draft, extra, drafted, whole, -⟩ := planTest_eq_ok (planTest_of_plannedAt located)
    have ends : endsInErrorType found.function.signature.results = true := by rw [same]; rfl
    refine ⟨found, located, ends, fun written treats => ?_⟩
    -- The other name is written, with or without a qualifier before it.
    have other : ∀ view : Viewpoint, (view.typeText extra (.aliased package "E" .error) == "error") =
        false := by
      intro view
      rw [beq_eq_false_iff_ne]
      refine ne_of_last (c := 'E') (d := 'r') ?_ (by decide) (by decide)
      rw [Viewpoint.typeText_aliased, qualifiedName]
      split
      · rfl
      · exact last_append _ rfl
    have last : found.function.signature.results[0]? =
        some ⟨bound, .aliased package "E" .error⟩ := by rw [same]; rfl
    have once := treats.checked "if tt.wantErr \x7b" (by simp)
    rw [count_lines_check found.plan (by simp), ends, whole,
      endsInError_of_last (results_of_planned drafted) last (by rw [same]; rfl), other] at once
    exact absurd once (by decide)
  · cases checked

end Scaffold
