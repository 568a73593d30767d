import Mathlib.Data.List.Forall2
import Scaffold.Proofs.Go.Opening

/-! The text of a type, followed by what cannot go on with it, tells which type it is. -/

namespace Scaffold.Go

section Read

open Unicode (isIdentifierContinue)

/-- Runs of characters in front of what does not continue them are the same if the texts are. -/
private theorem run_inj (test : Char → Bool) {run run' rest rest' : List Char}
    (all : ∀ c ∈ run, test c = true) (ends : ∀ c, rest.head? = some c → test c = false)
    (all' : ∀ c ∈ run', test c = true) (ends' : ∀ c, rest'.head? = some c → test c = false)
    (same : run ++ rest = run' ++ rest') : run = run' ∧ rest = rest' := by
  -- What is taken off the text is the run, on either side.
  have first := takeWhile_run all ends
  rw [same, takeWhile_run all' ends'] at first
  subst first
  exact ⟨rfl, List.append_cancel_left same⟩

/-- Names in front of what does not continue them are the same if the texts are. -/
private theorem name_inj {name name' : String} {rest rest' : List Char}
    (is : isName name.toList = true) (ends : EndsWord rest) (is' : isName name'.toList = true)
    (ends' : EndsWord rest') (same : name.toList ++ rest = name'.toList ++ rest') :
    name = name' ∧ rest = rest' := by
  obtain ⟨word, others⟩ := run_inj isIdentifierContinue (letters_of_isName is).2.1 ends
    (letters_of_isName is').2.1 ends' same
  exact ⟨String.toList_inj.mp word, others⟩

/-- Texts without a mark in front of that mark are the same if the texts are. -/
private theorem before_inj {mark : Char} {text text' rest rest' : List Char} (free : mark ∉ text)
    (free' : mark ∉ text') (same : text ++ mark :: rest = text' ++ mark :: rest') :
    text = text' ∧ rest = rest' := by
  have others : ∀ {text : List Char}, mark ∉ text → ∀ c ∈ text, (c != mark) = true := by
    rintro text free c member
    simpa using fun here : c = mark => free (here ▸ member)
  obtain ⟨rfl, equal⟩ := run_inj (· != mark) (others free) (by simp) (others free')
    (by simp) same
  exact ⟨rfl, (List.cons.inj equal).2⟩

/-- In front of a stop, the text of an element tells which of the well-formed elements it is. -/
def ReadsBack {α : Type} (text : α → List Char) (wellFormed : α → Prop) (same : α → α → Prop)
    (x : α) : Prop :=
  ∀ y, wellFormed y → ∀ rest rest', Stops rest → Stops rest' →
    text x ++ rest = text y ++ rest' → same x y ∧ rest = rest'

/-- Elements between separators tell which they are, up to what closes the list. -/
theorem forall₂_of_joinWith {α : Type} {text : α → List Char} {wellFormed : α → Prop}
    {same : α → α → Prop} {separator : List Char}
    (divides : separator.head? = some ',' ∨ separator.head? = some ';')
    (filled : ∀ x, wellFormed x → ∀ rest, Stops rest → ¬Closes (text x ++ rest)) {xs ys : List α}
    (reads : ∀ x ∈ xs, ReadsBack text wellFormed same x) (formed : ∀ x ∈ xs, wellFormed x)
    (formed' : ∀ y ∈ ys, wellFormed y) {rest rest' : List Char} (closes : Closes rest)
    (closes' : Closes rest')
    (equal : joinWith separator (xs.map text) ++ rest = joinWith separator (ys.map text) ++ rest') :
    List.Forall₂ same xs ys ∧ rest = rest' := by
  obtain ⟨mark, others, rfl, marks⟩ : ∃ mark others, separator = mark :: others ∧
      (mark = ',' ∨ mark = ';') := by
    rcases divides with head | head <;> obtain ⟨others, rfl⟩ := List.head?_eq_some_iff.mp head
    · exact ⟨_, others, rfl, .inl rfl⟩
    · exact ⟨_, others, rfl, .inr rfl⟩
  -- Behind an element comes the end of the list, or a separator and the other elements.
  let behind (elements : List α) : List Char :=
    if elements.isEmpty then [] else mark :: others ++ joinWith (mark :: others) (elements.map text)
  have split : ∀ x (elements : List α), joinWith (mark :: others) ((x :: elements).map text) =
      text x ++ behind elements := by
    intro x elements
    cases elements <;> simp [joinWith, behind]
  have stops : ∀ (elements : List α) {rest : List Char}, Closes rest →
      Stops (behind elements ++ rest) := by
    intro elements rest closes
    cases elements with
    | nil => exact closes.stops
    | cons x elements =>
      rintro c ⟨⟩
      rcases marks with rfl | rfl <;> simp
  have apart : ∀ {rest text : List Char}, Closes rest → rest ≠ mark :: text := by
    rintro _ text ⟨c, head, member⟩ rfl
    obtain rfl := Option.some.inj head
    rcases marks with rfl | rfl <;> simp at member
  induction xs generalizing ys with
  | nil =>
    cases ys with
    | nil => exact ⟨.nil, equal⟩
    | cons y ys =>
      rw [split, List.append_assoc] at equal
      -- A list that is closed here cannot go on with an element there.
      have here : rest = text y ++ (behind ys ++ rest') := equal
      exact absurd (here ▸ closes) (filled y (formed' y (by simp)) _ (stops ys closes'))
  | cons x xs ih =>
    cases ys with
    | nil =>
      rw [split, List.append_assoc] at equal
      have here : rest' = text x ++ (behind xs ++ rest) := equal.symm
      exact absurd (here ▸ closes') (filled x (formed x (by simp)) _ (stops xs closes))
    | cons y ys =>
      rw [split, split, List.append_assoc, List.append_assoc] at equal
      -- The first elements are read, then what stands behind them is divided in the same way.
      obtain ⟨first, equal⟩ := reads x (by simp) y (formed' y (by simp)) _ _ (stops xs closes)
        (stops ys closes') equal
      have others : List.Forall₂ same xs ys ∧ rest = rest' := by
        refine ih (fun x member => reads x (List.mem_cons_of_mem _ member))
          (fun x member => formed x (List.mem_cons_of_mem _ member))
          (fun y member => formed' y (List.mem_cons_of_mem _ member)) ?_
        -- The separators are the same, or there is none on either side.
        cases xs <;> cases ys
        · exact equal
        · exact absurd equal (apart closes)
        · exact absurd equal.symm (apart closes')
        · simpa [behind] using equal
      exact ⟨.cons first others.1, others.2⟩

end Read

section Types

open ResolvedType
open Unicode (isIdentifierContinue)

variable {qualifier : PackageRef → String}
  (qualifies : IsQualifier qualifier)

variable (qualifier) in
/-- The text of a type tells which type it is, up to identity. -/
def ResolvedType.Reads (type : ResolvedType) : Prop :=
  ReadsBack (ResolvedType.chars qualifier) (fun type => type.isWritable = true)
    (fun a b => identical a b = true) type

theorem writableTypes_iff {types : List ResolvedType} :
    writableTypes types = true ↔ ∀ type ∈ types, type.isWritable = true := by
  induction types with
  | nil => simp [writableTypes]
  | cons first rest ih => simp [writableTypes, ih]

theorem identicalTypes_of_forall₂ {types types' : List ResolvedType}
    (same : List.Forall₂ (fun a b => identical a b = true) types types') :
    identicalTypes types types' = true := by
  induction same with
  | nil => simp [identicalTypes]
  | cons first _ ih => simp [identicalTypes, first, ih]

include qualifies in
/-- The text of type arguments tells which they are. -/
theorem args_inj {args args' : List ResolvedType} (reads : ∀ type ∈ args, type.Reads qualifier)
    (formed : writableTypes args = true) (formed' : writableTypes args' = true)
    {rest rest' : List Char} (stops : Stops rest) (stops' : Stops rest')
    (equal : argChars qualifier args ++ rest = argChars qualifier args' ++ rest') :
    identicalTypes args args' = true ∧ rest = rest' := by
  rcases args with _ | ⟨first, others⟩ <;> rcases args' with _ | ⟨first', others'⟩
  -- Arguments on one side alone would begin with a bracket where nothing goes on.
  · exact ⟨by simp [identicalTypes], equal⟩
  · exact absurd equal (stops.ne_cons (by decide) _)
  · exact absurd equal.symm (stops'.ne_cons (by decide) _)
  · simp only [argChars, List.isEmpty_cons, Bool.false_eq_true, if_false, List.cons_append,
      List.append_assoc, List.cons.injEq, true_and, List.nil_append] at equal
    obtain ⟨same, equal⟩ := forall₂_of_joinWith (.inl rfl)
      (fun type formed rest stops => not_closes_chars qualifies formed stops) reads
      (writableTypes_iff.mp formed) (writableTypes_iff.mp formed') (closes_cons _)
      (closes_cons _) equal
    exact ⟨identicalTypes_of_forall₂ same, (List.cons.inj equal).2⟩

include qualifies in
theorem reads_named {package : PackageRef} {name : String} {args : List ResolvedType}
    {shape : Shape} (reads : ∀ type ∈ args, type.Reads qualifier)
    (formed : (ResolvedType.named ⟨package, name, args, shape⟩).isWritable = true) :
    (ResolvedType.named ⟨package, name, args, shape⟩).Reads qualifier := by
  intro b formed' rest rest' stops stops' equal
  have opens := opening_eq qualifies formed formed' stops stops' equal
  cases b with
  | named other =>
    obtain ⟨package', name', args', shape'⟩ := other
    simp only [isWritable, NamedType.isWritable, Bool.and_eq_true] at formed formed'
    -- The name of the type ends in front of its arguments, or with the type.
    have ends : ∀ (args : List ResolvedType) {rest : List Char}, Stops rest →
        EndsWord (argChars qualifier args ++ rest) := by
      intro args rest stops
      cases args with
      | nil => exact stops.endsWord
      | cons => exact endsWord_cons (by decide) _
    simp only [chars_named qualifier qualifies, List.append_assoc, List.cons_append] at equal
    obtain ⟨packages, equal⟩ := name_inj (qualifies.named package) (endsWord_cons (by decide) _)
      (qualifies.named package') (endsWord_cons (by decide) _) equal
    obtain ⟨names, equal⟩ := name_inj formed.1 (ends args stops) formed'.1 (ends args' stops')
      (List.cons.inj equal).2
    obtain ⟨same, rfl⟩ := args_inj qualifies reads formed.2 formed'.2 stops stops' equal
    exact ⟨by simp [identical, unalias, identicalNamed, qualifies.path packages, names, same], rfl⟩
  | aliased => cases formed'
  | _ => cases opens

/-- The word a type is written as, if it is written as one. -/
def ResolvedType.word? : ResolvedType → Option String
  | .basic name | .param name => some name
  | .error => some "error"
  | .any => some "any"
  | _ => none

variable (qualifier) in
/-- A type that begins with a word by itself is that word. -/
theorem chars_of_word {type : ResolvedType} (formed : type.isWritable = true)
    (opens : type.opening = .word) : ∃ word, type.word? = some word ∧
      isName word.toList = true ∧ type.chars qualifier = word.toList := by
  cases type with
  | basic name => exact ⟨name, rfl, isName_of_isBasicName formed, chars_basic qualifier name⟩
  | param name =>
    rw [isWritable, isChosenName, Bool.and_eq_true] at formed
    exact ⟨name, rfl, formed.1, chars_param qualifier name⟩
  | error => exact ⟨_, rfl, by decide, chars_error qualifier⟩
  | any => exact ⟨_, rfl, by decide, chars_any qualifier⟩
  | invalid => cases formed
  | _ => cases opens

/-- What a word says as a type: the predeclared type of that name, else a type parameter. -/
theorem eq_of_word {type : ResolvedType} (formed : type.isWritable = true) {word : String}
    (written : type.word? = some word) : type = (predeclared? word).getD (.param word) := by
  cases type with
  | basic name =>
    obtain rfl := Option.some.inj written
    -- Each predeclared name is looked up as itself.
    have others : ∀ name ∈ basicNames, (name == "error") = false ∧ (name == "any") = false := by
      decide
    obtain ⟨first, second⟩ := others name (List.contains_iff_mem.mp formed)
    rw [isWritable] at formed
    simp [predeclared?, first, second, formed]
  | param name =>
    obtain rfl := Option.some.inj written
    rw [isWritable, isChosenName, Bool.and_eq_true] at formed
    rw [Option.isNone_iff_eq_none.mp formed.2]
    rfl
  | error => obtain rfl := Option.some.inj written; rfl
  | any => obtain rfl := Option.some.inj written; rfl
  | _ => cases written

include qualifies in
theorem reads_word {type : ResolvedType} (formed : type.isWritable = true)
    (opens : type.opening = .word) : type.Reads qualifier := by
  intro b formed' rest rest' stops stops' equal
  -- Two types that begin with a word are these words, and a word says which type it is.
  have opens' := (opening_eq qualifies formed formed' stops stops' equal).symm.trans opens
  obtain ⟨word, written, is, text⟩ := chars_of_word qualifier formed opens
  obtain ⟨word', written', is', text'⟩ := chars_of_word qualifier formed' opens'
  rw [text, text'] at equal
  obtain ⟨rfl, rfl⟩ := name_inj is stops.endsWord is' stops'.endsWord equal
  obtain rfl : type = b := (eq_of_word formed written).trans (eq_of_word formed' written').symm
  refine ⟨?_, rfl⟩
  cases type with
  | basic | error | any | param => simp [identical, unalias]
  | _ => cases written

include qualifies in
theorem reads_pointer {elem : ResolvedType} (reads : elem.Reads qualifier)
    (formed : (pointer elem).isWritable = true) : (pointer elem).Reads qualifier := by
  intro b formed' rest rest' stops stops' equal
  have opens := opening_eq qualifies formed formed' stops stops' equal
  cases b with
  | pointer elem' =>
    rw [chars_pointer, chars_pointer] at equal
    obtain ⟨same, rfl⟩ := reads elem' formed' rest rest' stops stops' (List.cons.inj equal).2
    exact ⟨by simp [identical, unalias, same], rfl⟩
  | _ => cases opens

include qualifies in
theorem reads_slice {elem : ResolvedType} (reads : elem.Reads qualifier)
    (formed : (slice elem).isWritable = true) : (slice elem).Reads qualifier := by
  intro b formed' rest rest' stops stops' equal
  have opens := opening_eq qualifies formed formed' stops stops' equal
  cases b with
  | slice elem' =>
    rw [chars_slice, chars_slice] at equal
    obtain ⟨same, rfl⟩ := reads elem' formed' rest rest' stops stops'
      (List.cons.inj (List.cons.inj equal).2).2
    exact ⟨by simp [identical, unalias, same], rfl⟩
  | _ => cases opens

include qualifies in
theorem reads_array {length : String} {elem : ResolvedType} (reads : elem.Reads qualifier)
    (formed : (array length elem).isWritable = true) : (array length elem).Reads qualifier := by
  intro b formed' rest rest' stops stops' equal
  have opens := opening_eq qualifies formed formed' stops stops' equal
  cases b with
  | array length' elem' =>
    simp only [isWritable, Bool.and_eq_true, Bool.not_eq_true', List.contains_eq_mem,
      decide_eq_false_iff_not] at formed formed'
    simp only [chars_array, List.cons_append, List.append_assoc, List.cons.injEq, true_and] at equal
    -- No bracket is in a length, so the first one closes it.
    obtain ⟨lengths, equal⟩ := before_inj formed.1.2 formed'.1.2 equal
    obtain ⟨same, rfl⟩ := reads elem' formed'.2 rest rest' stops stops' equal
    exact ⟨by simp [identical, unalias, String.toList_inj.mp lengths, same], rfl⟩
  | _ => cases opens

include qualifies in
theorem reads_map {key value : ResolvedType} (readsKey : key.Reads qualifier)
    (readsValue : value.Reads qualifier) (formed : (ResolvedType.map key value).isWritable = true) :
    (ResolvedType.map key value).Reads qualifier := by
  intro b formed' rest rest' stops stops' equal
  have opens := opening_eq qualifies formed formed' stops stops' equal
  cases b with
  | map key' value' =>
    simp only [isWritable, Bool.and_eq_true] at formed formed'
    simp only [chars_map, List.append_assoc, List.cons_append] at equal
    have bracketed := (List.cons.inj (List.append_cancel_left equal)).2
    obtain ⟨keys, equal⟩ := readsKey key' formed'.1 _ _ (closes_cons _).stops
      (closes_cons _).stops bracketed
    obtain ⟨values, rfl⟩ := readsValue value' formed'.2 rest rest' stops stops'
      (List.cons.inj equal).2
    exact ⟨by simp [identical, unalias, keys, values], rfl⟩
  | _ => cases opens

include qualifies in
theorem reads_chan {dir : ChanDir} {elem : ResolvedType} (reads : elem.Reads qualifier)
    (formed : (chan dir elem).isWritable = true) : (chan dir elem).Reads qualifier := by
  intro b formed' rest rest' stops stops' equal
  have opens := opening_eq qualifies formed formed' stops stops' equal
  cases b with
  | chan dir' elem' =>
    obtain rfl : dir = dir' := Lead.chan.inj opens
    rw [chars_chan, chars_chan, List.append_assoc, List.append_assoc] at equal
    have equal := List.append_cancel_left equal
    have written : elem.isWritable = true := formed
    have written' : elem'.isWritable = true := formed'
    rw [elemChars, elemChars] at equal
    -- Parentheses around one element alone would begin a type.
    have same : identical elem elem' = true ∧ rest = rest' := by
      split at equal <;> split at equal
      · simp only [List.cons_append, List.append_assoc, List.cons.injEq, true_and] at equal
        obtain ⟨same, equal⟩ := reads elem' formed' _ _ (closes_cons _).stops
          (closes_cons _).stops equal
        exact ⟨same, (List.cons.inj equal).2⟩
      · exact absurd equal.symm (chars_ne_parenthesis qualifies written' stops')
      · exact absurd equal (chars_ne_parenthesis qualifies written stops)
      · exact reads elem' formed' rest rest' stops stops' equal
    exact ⟨by simp [identical, unalias, same.1], same.2⟩
  | _ => cases opens

/-- The name in front of the type of a variable, if there is one. -/
def Var.label (var : Var) : Option String :=
  if var.name.isEmpty then none else some var.name

/-- Whether a parameter can be written, spread if that is said. -/
structure IsEntry (entry : Bool × Var) : Prop where
  label : ∀ name ∈ entry.2.label, isName name.toList = true
  type : entry.2.type.isWritable = true
  slice : entry.1 = true → entry.2.type.isSlice = true

/-- Whether two parameters have identical types and both or none are spread. -/
structure SameEntry (entry other : Bool × Var) : Prop where
  spread : entry.1 = other.1
  type : identical entry.2.type other.2.type = true

theorem charsOf_label (label : String) :
    charsOf qualifier (fieldName (some label)) = label.toList ++ [' '] := by
  simp [fieldName]

/-- A name and a blank stand in front of what they label. -/
theorem openingOf_label {label : String} (is : isName label.toList = true) (body : List Char) :
    openingOf (charsOf qualifier (fieldName (some label)) ++ body) = some .label := by
  rw [charsOf_label, List.append_assoc, List.singleton_append,
    openingOf_name is (endsWord_cons (by decide) _)]
  rfl

theorem label_inj {label label' : Option String} (is : ∀ name ∈ label, isName name.toList = true)
    (is' : ∀ name ∈ label', isName name.toList = true) {body body' : List Char}
    (bare : openingOf body ≠ some .label) (bare' : openingOf body' ≠ some .label)
    (equal : charsOf qualifier (fieldName label) ++ body =
      charsOf qualifier (fieldName label') ++ body') : label = label' ∧ body = body' := by
  cases label with
  | none =>
    cases label' with
    | none => exact ⟨rfl, equal⟩
    | some name' =>
      -- A label on one side alone would begin a type.
      have here : body = charsOf qualifier (fieldName (some name')) ++ body' := equal
      exact absurd (here ▸ openingOf_label (is' name' rfl) body') bare
  | some name =>
    cases label' with
    | none =>
      have here : body' = charsOf qualifier (fieldName (some name)) ++ body := equal.symm
      exact absurd (here ▸ openingOf_label (is name rfl) body) bare'
    | some name' =>
      rw [charsOf_label, charsOf_label, List.append_assoc, List.append_assoc] at equal
      obtain ⟨rfl, others⟩ := name_inj (is name rfl) (endsWord_cons (by decide) _) (is' name' rfl)
        (endsWord_cons (by decide) _) equal
      exact ⟨rfl, (List.cons.inj others).2⟩

theorem charsOf_spread_slice (elem : ResolvedType) :
    charsOf qualifier (Go.spread true (slice elem).pieces) =
      "...".toList ++ elem.chars qualifier := by
  simp [Go.spread, pieces, chars]

include qualifies in
/-- A type in a list of parameters begins as such, or with the dots that spread it. -/
theorem openingOf_spread {spreads : Bool} {type : ResolvedType} (formed : type.isWritable = true)
    (sliced : spreads = true → type.isSlice = true) {rest : List Char} (stops : Stops rest) :
    openingOf (charsOf qualifier (Go.spread spreads type.pieces) ++ rest) =
      some (if spreads then .spread else type.opening) := by
  cases spreads with
  | false => exact openingOf_chars qualifies formed stops
  | true =>
    cases type with
    | slice elem =>
      rw [charsOf_spread_slice, List.append_assoc]
      exact openingOf_mark (by decide) _
    | _ => cases sliced rfl

include qualifies in
/-- A type in a list of parameters tells which one it is, and whether it is spread. -/
theorem spread_inj {spreads spreads' : Bool} {type type' : ResolvedType}
    (reads : type.Reads qualifier) (formed : type.isWritable = true)
    (formed' : type'.isWritable = true) (sliced : spreads = true → type.isSlice = true)
    (sliced' : spreads' = true → type'.isSlice = true) {rest rest' : List Char}
    (stops : Stops rest) (stops' : Stops rest')
    (equal : charsOf qualifier (Go.spread spreads type.pieces) ++ rest =
      charsOf qualifier (Go.spread spreads' type'.pieces) ++ rest') :
    spreads = spreads' ∧ identical type type' = true ∧ rest = rest' := by
  have opens := (openingOf_spread qualifies formed sliced stops).symm.trans
    (equal ▸ openingOf_spread qualifies formed' sliced' stops')
  cases spreads <;> cases spreads'
  · exact ⟨rfl, reads type' formed' rest rest' stops stops' equal⟩
  -- No type begins with dots, so both are spread or none is.
  · exact absurd (Option.some.inj opens) type.opening_ne.2.2
  · exact absurd (Option.some.inj opens).symm type'.opening_ne.2.2
  · -- Dots on both sides are like the brackets that they stand for.
    cases type with
    | slice elem =>
      cases type' with
      | slice elem' =>
        rw [charsOf_spread_slice, charsOf_spread_slice, List.append_assoc,
          List.append_assoc] at equal
        have equal := List.append_cancel_left equal
        refine ⟨rfl, reads (slice elem') formed' rest rest' stops stops' ?_⟩
        rw [chars_slice, chars_slice, List.cons_append, List.cons_append, equal]
        rfl
      | _ => cases sliced' rfl
    | _ => cases sliced rfl

theorem spreadChars_eq (entry : Bool × Var) : spreadChars qualifier entry =
    charsOf qualifier (fieldName entry.2.label) ++
      charsOf qualifier (Go.spread entry.1 entry.2.type.pieces) := by
  rw [spreadChars, leadingName, Var.label]
  split <;> rfl

include qualifies in
theorem bare_spread {entry : Bool × Var} (formed : IsEntry entry) {rest : List Char}
    (stops : Stops rest) : openingOf
      (charsOf qualifier (Go.spread entry.1 entry.2.type.pieces) ++ rest) ≠ some .label := by
  rw [openingOf_spread qualifies formed.type formed.slice stops]
  split
  · simp
  · simpa using entry.2.type.opening_ne.1

include qualifies in
theorem not_closes_spreadChars {entry : Bool × Var} (formed : IsEntry entry) {rest : List Char}
    (stops : Stops rest) : ¬Closes (spreadChars qualifier entry ++ rest) := by
  intro closes
  have none := openingOf_closes closes
  rw [spreadChars_eq, List.append_assoc] at none
  cases label : entry.2.label with
  | none =>
    rw [label] at none
    cases (openingOf_spread qualifies formed.type formed.slice stops).symm.trans none
  | some name =>
    rw [label, openingOf_label (formed.label name label)] at none
    cases none

include qualifies in
theorem reads_entry {entry : Bool × Var} (reads : entry.2.type.Reads qualifier)
    (formed : IsEntry entry) : ReadsBack (spreadChars qualifier) IsEntry SameEntry entry := by
  intro other formed' rest rest' stops stops' equal
  rw [spreadChars_eq, spreadChars_eq, List.append_assoc, List.append_assoc] at equal
  obtain ⟨-, equal⟩ := label_inj formed.label formed'.label (bare_spread qualifies formed stops)
    (bare_spread qualifies formed' stops') equal
  obtain ⟨spreads, types, others⟩ := spread_inj qualifies reads formed.type formed'.type
    formed.slice formed'.slice stops stops' equal
  exact ⟨⟨spreads, types⟩, others⟩

theorem map_snd_spreadable (variadic : Bool) :
    ∀ vars : List Var, (spreadable variadic vars).map Prod.snd = vars
  | [] | [_] => rfl
  | first :: second :: rest => congrArg (first :: ·) (map_snd_spreadable variadic (second :: rest))

/-- Only slices are spread. -/
theorem isSlice_of_spreadable (variadic : Bool) : ∀ vars : List Var,
    ∀ entry ∈ spreadable variadic vars, entry.1 = true → entry.2.type.isSlice = true
  | [] => by simp [spreadable]
  | [_] => by simp [spreadable]
  | first :: second :: rest => by
    have others := isSlice_of_spreadable variadic (second :: rest)
    simpa [spreadable] using others

/-- A signature is variadic exactly if one of its parameters is spread. -/
theorem contains_spreadable {variadic : Bool} : ∀ {vars : List Var},
    (!variadic || (vars.getLast?.map fun last => last.type.isSlice).getD false) = true →
      ((spreadable variadic vars).map Prod.fst).contains true = variadic
  | [], last => by cases variadic <;> simp_all [spreadable]
  | [var], last => by cases variadic <;> simp_all [spreadable]
  | first :: second :: rest, last => by
    rw [List.getLast?_cons_cons] at last
    simpa [spreadable] using contains_spreadable last

theorem writableVars_iff {vars : List Var} : writableVars vars = true ↔ ∀ var ∈ vars,
    (∀ name ∈ var.label, isName name.toList = true) ∧ var.type.isWritable = true := by
  induction vars with
  | nil => simp [writableVars]
  | cons first rest ih =>
    obtain ⟨name, type⟩ := first
    have labelled : (name.isEmpty || isName name.toList) = true ↔
        ∀ label ∈ (Var.mk name type).label, isName label.toList = true := by
      rw [Var.label]
      split <;> simp_all
    rw [writableVars, Bool.and_eq_true, Bool.and_eq_true, labelled, ih, List.forall_mem_cons]

theorem isEntry_of_spreadable {variadic : Bool} {vars : List Var}
    (formed : writableVars vars = true) : ∀ entry ∈ spreadable variadic vars, IsEntry entry := by
  intro entry member
  have var : entry.2 ∈ vars :=
    map_snd_spreadable variadic vars ▸ List.mem_map_of_mem member
  obtain ⟨label, type⟩ := writableVars_iff.mp formed entry.2 var
  exact ⟨label, type, isSlice_of_spreadable variadic vars entry member⟩

theorem identicalVars_of_forall₂ {vars vars' : List Var}
    (same : List.Forall₂ (fun a b => identical a.type b.type = true) vars vars') :
    identicalVars vars vars' = true := by
  induction same with
  | nil => simp [identicalVars]
  | @cons var _ _ _ first _ ih =>
    obtain ⟨name, type⟩ := var
    simp [identicalVars, first, ih]

include qualifies in
/-- The text of variables up to what closes their list tells their types and what is spread. -/
theorem vars_inj {vars vars' : List Var} {variadic variadic' : Bool}
    (reads : ∀ var ∈ vars, var.type.Reads qualifier) (formed : writableVars vars = true)
    (formed' : writableVars vars' = true) {rest rest' : List Char} (closes : Closes rest)
    (closes' : Closes rest') (equal : listChars qualifier variadic vars ++ rest =
      listChars qualifier variadic' vars' ++ rest') :
    identicalVars vars vars' = true ∧
      (spreadable variadic vars).map Prod.fst = (spreadable variadic' vars').map Prod.fst ∧
      rest = rest' := by
  obtain ⟨same, others⟩ := forall₂_of_joinWith (.inl rfl)
    (fun entry formed rest stops => not_closes_spreadChars qualifies formed stops)
    (fun entry member => reads_entry qualifies
      (reads entry.2 (map_snd_spreadable variadic vars ▸ List.mem_map_of_mem member))
      (isEntry_of_spreadable formed entry member))
    (isEntry_of_spreadable formed) (isEntry_of_spreadable formed') closes closes' equal
  have types : List.Forall₂ (fun a b => identical a.type b.type = true)
      ((spreadable variadic vars).map Prod.snd) ((spreadable variadic' vars').map Prod.snd) :=
    List.rel_map (fun _ _ same => same.type) same
  have flags : List.Forall₂ Eq
      ((spreadable variadic vars).map Prod.fst) ((spreadable variadic' vars').map Prod.fst) :=
    List.rel_map (fun _ _ same => same.spread) same
  rw [map_snd_spreadable, map_snd_spreadable] at types
  rw [List.forall₂_eq_eq_eq] at flags
  exact ⟨identicalVars_of_forall₂ types, flags, others⟩

theorem eq_of_bareResult? : ∀ {results : List Var} {type : ResolvedType},
    bareResult? results = some type → results = [⟨"", type⟩]
  | [], _, bare => by cases bare
  | [⟨name, held⟩], type, bare => by
    rw [bareResult?, Option.ite_none_right_eq_some] at bare
    rw [String.isEmpty_iff.mp bare.1, Option.some.inj bare.2]
  | _ :: _ :: _, _, bare => by simp [bareResult?] at bare

theorem isWritable_of_bareResult? {results : List Var} (formed : writableVars results = true)
    {type : ResolvedType} (bare : bareResult? results = some type) : type.isWritable = true := by
  rw [eq_of_bareResult? bare] at formed
  exact (writableVars_iff.mp formed ⟨"", type⟩ (List.mem_singleton_self _)).2

include qualifies in
/-- Results are either one type or a list in parentheses. -/
theorem resultText_inj {results results' : List Var}
    (reads : ∀ var ∈ results, var.type.Reads qualifier) (formed : writableVars results = true)
    (formed' : writableVars results' = true) {rest rest' : List Char} (stops : Stops rest)
    (stops' : Stops rest')
    (equal : resultText qualifier results ++ rest = resultText qualifier results' ++ rest') :
    identicalVars results results' = true ∧ rest = rest' := by
  rw [resultText, resultText] at equal
  cases bare : bareResult? results with
  | some type =>
    have written := isWritable_of_bareResult? formed bare
    cases bare' : bareResult? results' with
    | some type' =>
      rw [bare, bare'] at equal
      obtain rfl := eq_of_bareResult? bare
      obtain rfl := eq_of_bareResult? bare'
      obtain ⟨same, others⟩ := reads ⟨"", type⟩ (List.mem_singleton_self _) type'
        (isWritable_of_bareResult? formed' bare') rest rest' stops stops' equal
      exact ⟨by simp [identicalVars, same], others⟩
    | none =>
      rw [bare, bare'] at equal
      -- A single result without a name has no parentheses, a list has them.
      exact absurd equal (chars_ne_parenthesis qualifies written stops)
  | none =>
    cases bare' : bareResult? results' with
    | some type' =>
      rw [bare, bare'] at equal
      have written := isWritable_of_bareResult? formed' bare'
      exact absurd equal.symm (chars_ne_parenthesis qualifies written stops')
    | none =>
      rw [bare, bare'] at equal
      simp only [List.cons_append, List.append_assoc, List.cons.injEq, true_and] at equal
      obtain ⟨same, -, equal⟩ := vars_inj qualifies reads formed formed' (closes_cons _)
        (closes_cons _) equal
      exact ⟨same, (List.cons.inj equal).2⟩

include qualifies in
/-- The text of results tells their types. -/
theorem results_inj {results results' : List Var}
    (reads : ∀ var ∈ results, var.type.Reads qualifier) (formed : writableVars results = true)
    (formed' : writableVars results' = true) {rest rest' : List Char} (stops : Stops rest)
    (stops' : Stops rest')
    (equal : resultChars qualifier results ++ rest = resultChars qualifier results' ++ rest') :
    identicalVars results results' = true ∧ rest = rest' := by
  cases empty : results.isEmpty <;> cases empty' : results'.isEmpty <;>
    simp only [resultChars, empty, empty', if_true, if_false, Bool.false_eq_true, List.nil_append,
      List.cons_append, List.cons.injEq, true_and] at equal
  -- Results stand behind a blank, which nothing else may follow.
  · exact resultText_inj qualifies reads formed formed' stops stops' equal
  · exact absurd equal.symm (stops'.ne_cons (by decide) _)
  · exact absurd equal (stops.ne_cons (by decide) _)
  · rw [List.isEmpty_iff.mp empty, List.isEmpty_iff.mp empty']
    exact ⟨by simp [identicalVars], equal⟩

variable (qualifier) in
/-- The text of a signature tells which signature it is, up to identity. -/
def Signature.Reads (signature : Signature) : Prop :=
  ReadsBack (Signature.chars qualifier) (fun signature => signature.isWritable = true)
    (fun a b => identicalSignatures a b = true) signature

include qualifies in
theorem reads_signature {params results : List Var} {variadic : Bool}
    (readsParams : ∀ var ∈ params, var.type.Reads qualifier)
    (readsResults : ∀ var ∈ results, var.type.Reads qualifier)
    (formed : (Signature.mk params results variadic).isWritable = true) :
    (Signature.mk params results variadic).Reads qualifier := by
  rintro ⟨params', results', variadic'⟩ formed' rest rest' stops stops' equal
  simp only [Signature.isWritable, Bool.and_eq_true] at formed formed'
  simp only [chars_signature, List.cons_append, List.append_assoc, List.cons.injEq,
    true_and] at equal
  obtain ⟨params, flags, equal⟩ := vars_inj qualifies readsParams formed.1.1 formed'.1.1
    (closes_cons _) (closes_cons _) equal
  obtain ⟨results, others⟩ := results_inj qualifies readsResults formed.1.2 formed'.1.2 stops stops'
    (List.cons.inj equal).2
  have variadics : variadic = variadic' := by
    rw [← contains_spreadable formed.2, flags, contains_spreadable formed'.2]
  exact ⟨by simp [identicalSignatures, params, results, variadics], others⟩

include qualifies in
theorem reads_func {signature : Signature} (reads : signature.Reads qualifier)
    (formed : (func signature).isWritable = true) : (func signature).Reads qualifier := by
  intro b formed' rest rest' stops stops' equal
  have opens := opening_eq qualifies formed formed' stops stops' equal
  cases b with
  | func signature' =>
    rw [chars_func, chars_func, List.append_assoc, List.append_assoc] at equal
    obtain ⟨same, rfl⟩ := reads signature' formed' rest rest' stops stops'
      (List.append_cancel_left equal)
    exact ⟨by simp [identical, unalias, same], rfl⟩
  | _ => cases opens

/-- Whether a field can be written. -/
structure IsField (field : StructField) : Prop where
  label : ∀ name ∈ field.name, isName name.toList = true
  type : field.type.isWritable = true

/-- Whether two fields have one name and identical types. -/
structure SameField (field other : StructField) : Prop where
  name : field.name = other.name
  type : identical field.type other.type = true

theorem writableFields_iff {fields : List StructField} :
    writableFields fields = true ↔ ∀ field ∈ fields, IsField field := by
  induction fields with
  | nil => simp [writableFields]
  | cons first rest ih =>
    obtain ⟨name, type⟩ := first
    have field : IsField ⟨name, type⟩ ↔ ((name.map fun name => isName name.toList).getD true &&
        type.isWritable) = true := by
      rw [Bool.and_eq_true]
      exact ⟨fun ⟨label, type⟩ => ⟨by cases name <;> simp_all, type⟩,
        fun ⟨label, type⟩ => ⟨by cases name <;> simp_all, type⟩⟩
    rw [writableFields, Bool.and_eq_true, ih, List.forall_mem_cons, field]

theorem identicalFields_of_forall₂ {fields fields' : List StructField}
    (same : List.Forall₂ SameField fields fields') : identicalFields fields fields' = true := by
  induction same with
  | nil => simp [identicalFields]
  | @cons field _ _ _ first _ ih =>
    obtain ⟨name, type⟩ := field
    simp [identicalFields, first.name.symm, first.type, ih]

include qualifies in
theorem not_closes_field {field : StructField} (formed : IsField field) {rest : List Char}
    (stops : Stops rest) : ¬Closes (field.chars qualifier ++ rest) := by
  rw [StructField.chars, List.append_assoc]
  cases label : field.name with
  | none => exact not_closes_chars qualifies formed.type stops
  | some name =>
    intro closes
    have none := openingOf_closes closes
    rw [openingOf_label (formed.label name label)] at none
    cases none

include qualifies in
theorem reads_field {field : StructField} (reads : field.type.Reads qualifier)
    (formed : IsField field) : ReadsBack (StructField.chars qualifier) IsField SameField field := by
  intro other formed' rest rest' stops stops' equal
  rw [StructField.chars, StructField.chars, List.append_assoc, List.append_assoc] at equal
  obtain ⟨names, equal⟩ := label_inj formed.label formed'.label
    (bare_chars qualifies formed.type stops) (bare_chars qualifies formed'.type stops') equal
  obtain ⟨types, others⟩ := reads _ formed'.type rest rest' stops stops' equal
  exact ⟨⟨names, types⟩, others⟩

include qualifies in
theorem reads_struct {fields : List StructField}
    (reads : ∀ field ∈ fields, field.type.Reads qualifier)
    (formed : (struct fields).isWritable = true) : (struct fields).Reads qualifier := by
  intro b formed' rest rest' stops stops' equal
  have opens := opening_eq qualifies formed formed' stops stops' equal
  cases b with
  | struct fields' =>
    rw [isWritable] at formed formed'
    simp only [chars_struct, List.append_assoc, List.cons_append] at equal
    obtain ⟨same, equal⟩ := forall₂_of_joinWith (.inr rfl)
      (fun field formed rest stops => not_closes_field qualifies formed stops)
      (fun field member => reads_field qualifies (reads field member)
        (writableFields_iff.mp formed field member))
      (writableFields_iff.mp formed) (writableFields_iff.mp formed') (closes_cons _) (closes_cons _)
      (List.cons.inj (List.append_cancel_left equal)).2
    exact ⟨by simp [identical, unalias, identicalFields_of_forall₂ same], (List.cons.inj equal).2⟩
  | _ => cases opens

/-- Whether an interface element can be written. -/
def IsElem : InterfaceElem → Prop
  | .method name signature => isName name.toList = true ∧ signature.isWritable = true
  | .embedded type => type.isWritable = true

/-- Whether two elements are methods of one name and identical signatures, or identical types. -/
def SameElem : InterfaceElem → InterfaceElem → Prop
  | .method name signature, .method other signature' =>
    name = other ∧ identicalSignatures signature signature' = true
  | .embedded type, .embedded type' => identical type type' = true
  | _, _ => False

theorem writableElems_iff {elems : List InterfaceElem} :
    writableElems elems = true ↔ ∀ elem ∈ elems, IsElem elem := by
  induction elems with
  | nil => simp [writableElems]
  | cons first rest ih => cases first <;> simp [writableElems, IsElem, ih]

theorem identicalElems_of_forall₂ {elems elems' : List InterfaceElem}
    (same : List.Forall₂ SameElem elems elems') : identicalElems elems elems' = true := by
  induction same with
  | nil => simp [identicalElems]
  | @cons elem elem' _ _ first _ ih =>
    cases elem <;> cases elem' <;> first | exact first.elim | simp_all [identicalElems, SameElem]

variable (qualifier) in
/-- The text of an interface element tells which one it is. -/
def InterfaceElem.Reads (elem : InterfaceElem) : Prop :=
  ReadsBack (InterfaceElem.chars qualifier) IsElem SameElem elem

variable (qualifier) in
/-- A parenthesis behind a name makes a method. -/
theorem openingOf_method {name : String} (is : isName name.toList = true) (signature : Signature)
    (rest : List Char) :
    openingOf ((InterfaceElem.method name signature).chars qualifier ++ rest) = some .method := by
  obtain ⟨params, results, variadic⟩ := signature
  have text : (InterfaceElem.method name ⟨params, results, variadic⟩).chars qualifier =
      name.toList ++ (Signature.mk params results variadic).chars qualifier := by
    simp [InterfaceElem.chars, InterfaceElem.pieces, Signature.chars]
  rw [text, chars_signature, List.append_assoc, List.cons_append,
    openingOf_name is (endsWord_cons (by decide) _)]
  rfl

theorem chars_embedded (type : ResolvedType) :
    (InterfaceElem.embedded type).chars qualifier = type.chars qualifier := by
  simp [InterfaceElem.chars, InterfaceElem.pieces, ResolvedType.chars]

include qualifies in
theorem not_closes_elem {elem : InterfaceElem} (formed : IsElem elem) {rest : List Char}
    (stops : Stops rest) : ¬Closes (elem.chars qualifier ++ rest) := by
  cases elem with
  | method name signature =>
    intro closes
    have none := openingOf_closes closes
    rw [openingOf_method qualifier formed.1] at none
    cases none
  | embedded type =>
    rw [chars_embedded]
    exact not_closes_chars qualifies formed stops

include qualifies in
/-- A method is no type. -/
theorem chars_ne_method {type : ResolvedType} (formed : type.isWritable = true) {name : String}
    (is : isName name.toList = true) {signature : Signature} {rest rest' : List Char}
    (stops : Stops rest) : (InterfaceElem.embedded type).chars qualifier ++ rest ≠
      (InterfaceElem.method name signature).chars qualifier ++ rest' := by
  intro equal
  have opens := openingOf_method qualifier is signature rest'
  rw [← equal, chars_embedded, openingOf_chars qualifies formed stops] at opens
  exact type.opening_ne.2.1 (Option.some.inj opens)

include qualifies in
theorem reads_method {name : String} {signature : Signature} (reads : signature.Reads qualifier)
    (is : isName name.toList = true) : (InterfaceElem.method name signature).Reads qualifier := by
  intro other formed' rest rest' stops stops' equal
  cases other with
  | embedded type => exact absurd equal.symm (chars_ne_method qualifies formed' is stops')
  | method name' signature' =>
    have ends : ∀ (signature : Signature) (rest : List Char),
        EndsWord (signature.chars qualifier ++ rest) := by
      rintro ⟨params, results, variadic⟩ rest
      rw [chars_signature]
      exact endsWord_cons (by decide) _
    simp only [InterfaceElem.chars, InterfaceElem.pieces, charsOf_text, ← Signature.chars.eq_1,
      List.append_assoc] at equal
    obtain ⟨names, equal⟩ := name_inj is (ends _ _) formed'.1 (ends _ _) equal
    obtain ⟨same, others⟩ := reads signature' formed'.2 rest rest' stops stops' equal
    exact ⟨⟨names, same⟩, others⟩

include qualifies in
theorem reads_embedded {type : ResolvedType} (reads : type.Reads qualifier)
    (formed : type.isWritable = true) : (InterfaceElem.embedded type).Reads qualifier := by
  intro other formed' rest rest' stops stops' equal
  cases other with
  | method name signature => exact absurd equal (chars_ne_method qualifies formed formed'.1 stops)
  | embedded type' =>
    rw [chars_embedded, chars_embedded] at equal
    exact reads type' formed' rest rest' stops stops' equal

include qualifies in
theorem reads_interface {elems : List InterfaceElem} (reads : ∀ elem ∈ elems, elem.Reads qualifier)
    (formed : (ResolvedType.interface elems).isWritable = true) :
    (ResolvedType.interface elems).Reads qualifier := by
  intro b formed' rest rest' stops stops' equal
  have opens := opening_eq qualifies formed formed' stops stops' equal
  cases b with
  | interface elems' =>
    rw [isWritable] at formed formed'
    simp only [chars_interface, List.append_assoc, List.cons_append] at equal
    obtain ⟨same, equal⟩ := forall₂_of_joinWith (.inr rfl)
      (fun elem formed rest stops => not_closes_elem qualifies formed stops) reads
      (writableElems_iff.mp formed) (writableElems_iff.mp formed') (closes_cons _) (closes_cons _)
      (List.cons.inj (List.append_cancel_left equal)).2
    exact ⟨by simp [identical, unalias, identicalElems_of_forall₂ same], (List.cons.inj equal).2⟩
  | _ => cases opens

mutual

/-- The text of a type in front of a stop tells which type it is, up to identity. -/
theorem reads_type (qualifies : IsQualifier qualifier) :
    ∀ type : ResolvedType, type.isWritable = true → type.Reads qualifier
  | .basic _, formed | .error, formed | .any, formed | .param _, formed =>
    reads_word qualifies formed rfl
  | .named ⟨_, _, args, _⟩, formed => by
    have written := formed
    rw [isWritable, NamedType.isWritable, Bool.and_eq_true] at written
    exact reads_named qualifies (reads_types qualifies args written.2) formed
  | .pointer elem, formed => reads_pointer qualifies (reads_type qualifies elem formed) formed
  | .slice elem, formed => reads_slice qualifies (reads_type qualifies elem formed) formed
  | .array _ elem, formed => by
    have written := formed
    rw [isWritable, Bool.and_eq_true] at written
    exact reads_array qualifies (reads_type qualifies elem written.2) formed
  | .map key value, formed => by
    have written := formed
    rw [isWritable, Bool.and_eq_true] at written
    exact reads_map qualifies (reads_type qualifies key written.1)
      (reads_type qualifies value written.2) formed
  | .chan _ elem, formed => reads_chan qualifies (reads_type qualifies elem formed) formed
  | .func ⟨params, results, _⟩, formed => by
    have written := formed
    rw [isWritable, Signature.isWritable, Bool.and_eq_true, Bool.and_eq_true] at written
    exact reads_func qualifies (reads_signature qualifies (reads_vars qualifies params written.1.1)
      (reads_vars qualifies results written.1.2) formed) formed
  | .struct fields, formed => reads_struct qualifies (reads_fields qualifies fields formed) formed
  | .interface elems, formed =>
    reads_interface qualifies (reads_elems qualifies elems formed) formed
  | .aliased _ _ _, formed => by cases formed
  | .invalid _, formed => by cases formed

theorem reads_types (qualifies : IsQualifier qualifier) :
    ∀ types : List ResolvedType, writableTypes types = true → ∀ type ∈ types, type.Reads qualifier
  | [], _ => by simp
  | first :: rest, formed => by
    rw [writableTypes, Bool.and_eq_true] at formed
    exact List.forall_mem_cons.mpr
      ⟨reads_type qualifies first formed.1, reads_types qualifies rest formed.2⟩

theorem reads_vars (qualifies : IsQualifier qualifier) :
    ∀ vars : List Var, writableVars vars = true → ∀ var ∈ vars, var.type.Reads qualifier
  | [], _ => by simp
  | ⟨_, type⟩ :: rest, formed => by
    rw [writableVars, Bool.and_eq_true, Bool.and_eq_true] at formed
    exact List.forall_mem_cons.mpr
      ⟨reads_type qualifies type formed.1.2, reads_vars qualifies rest formed.2⟩

theorem reads_fields (qualifies : IsQualifier qualifier) :
    ∀ fields : List StructField, writableFields fields = true →
      ∀ field ∈ fields, field.type.Reads qualifier
  | [], _ => by simp
  | ⟨_, type⟩ :: rest, formed => by
    rw [writableFields, Bool.and_eq_true, Bool.and_eq_true] at formed
    exact List.forall_mem_cons.mpr
      ⟨reads_type qualifies type formed.1.2, reads_fields qualifies rest formed.2⟩

theorem reads_elems (qualifies : IsQualifier qualifier) :
    ∀ elems : List InterfaceElem, writableElems elems = true → ∀ elem ∈ elems, elem.Reads qualifier
  | [], _ => by simp
  | .method name ⟨params, results, _⟩ :: rest, formed => by
    rw [writableElems, Bool.and_eq_true, Bool.and_eq_true] at formed
    have written := formed.1.2
    rw [Signature.isWritable, Bool.and_eq_true, Bool.and_eq_true] at written
    exact List.forall_mem_cons.mpr ⟨reads_method qualifies (reads_signature qualifies
      (reads_vars qualifies params written.1.1) (reads_vars qualifies results written.1.2)
      formed.1.2) formed.1.1, reads_elems qualifies rest formed.2⟩
  | .embedded type :: rest, formed => by
    rw [writableElems, Bool.and_eq_true] at formed
    exact List.forall_mem_cons.mpr
      ⟨reads_embedded qualifies (reads_type qualifies type formed.1) formed.1,
        reads_elems qualifies rest formed.2⟩

end

/-- Types that are written alike are identical. -/
theorem identical_of_writePieces (qualifies : IsQualifier qualifier) {a b : ResolvedType}
    (formed : a.isWritable = true) (formed' : b.isWritable = true)
    (equal : Id.run (writePieces (fun package => pure (qualifier package)) a.pieces) =
      Id.run (writePieces (fun package => pure (qualifier package)) b.pieces)) :
    identical a b = true := by
  have text : a.chars qualifier = b.chars qualifier := by
    rw [chars, chars, ← toList_writePieces, ← toList_writePieces, equal]
  have ended : Stops [] := fun c head => by cases head
  exact (reads_type qualifies a formed b formed' [] [] ended ended (by rw [text])).1

/-- A qualifier that spells a path in two letters, each character by as many as its number. -/
def spelledPath (package : PackageRef) : String :=
  String.ofList ('q' :: package.path.toList.flatMap fun c => List.replicate c.toNat 'a' ++ ['b'])

theorem isQualifier_spelledPath : IsQualifier spelledPath where
  named package := by
    have letters : ∀ c ∈ package.path.toList.flatMap fun c => List.replicate c.toNat 'a' ++ ['b'],
        isIdentifierContinue c = true := by
      intro c member
      obtain ⟨d, -, member⟩ := List.mem_flatMap.mp member
      rcases List.mem_append.mp member with member | member
      · rw [List.eq_of_mem_replicate member]
        decide
      · rw [List.mem_singleton.mp member]
        decide
    -- No keyword begins with the letter that all qualifiers begin with.
    have others : ∀ keyword ∈ keywords, keyword.toList.head? ≠ some 'q' := by decide
    rw [spelledPath, String.toList_ofList, isName, List.all_eq_true.mpr letters]
    simp only [Bool.and_true, Bool.and_eq_true, Bool.not_eq_true']
    refine ⟨by decide, ?_⟩
    rw [List.contains_eq_mem, decide_eq_false_iff_not]
    exact fun member => others _ member (by simp)
  path {package other} same := by
    have spelled : ∀ path path' : List Char,
        path.flatMap (fun c => List.replicate c.toNat 'a' ++ ['b']) =
          path'.flatMap (fun c => List.replicate c.toNat 'a' ++ ['b']) → path = path' := by
      intro path
      induction path with
      | nil => rintro (_ | ⟨c', path'⟩) same <;> simp_all
      | cons c path ih =>
        rintro (_ | ⟨c', path'⟩) same
        · simp at same
        · simp only [List.flatMap_cons, List.append_assoc, List.singleton_append] at same
          -- The second letter divides the numbers of the characters.
          obtain ⟨counts, same⟩ := before_inj (by simp) (by simp) same
          have numbers : c.toNat = c'.toNat := by simpa using congrArg List.length counts
          rw [Char.toNat_inj.mp numbers, ih path' same]
    have texts := congrArg String.toList same
    rw [spelledPath, spelledPath, String.toList_ofList, String.toList_ofList] at texts
    exact String.toList_inj.mp (spelled _ _ (List.cons.inj texts).2)

/-- What a package declares itself to be called is not written, nor is what a type is made of. -/
theorem identical_of_writePieces_sameName :
    identical
      (.chan .both (.chan .receive (.named ⟨⟨"a/b", "b"⟩, "T", [.param "K"], .struct⟩)))
      (.chan .both (.chan .receive (.named ⟨⟨"a/b", "c"⟩, "T", [.param "K"], .unknown⟩))) = true :=
  identical_of_writePieces isQualifier_spelledPath (by decide) (by decide)
    (by simp only [pieces, NamedType.pieces, argPieces]; rfl)

end Types

end Scaffold.Go
