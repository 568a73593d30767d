import Scaffold.Proofs.Numbering
import Scaffold.Proofs.Test.Origins
import Scaffold.Proofs.Test.Page
import Scaffold.Proofs.Text.Brackets

/-! The lines of a test fit: none is broken or indented by its text, and their brackets pair up. -/

namespace Scaffold

section Fits

/-- A text that can stand on a line, and what it does to brackets that were opened before it. -/
structure Fits (kinds : Brackets) (missing left : List Char) (text : String) : Prop where
  line : FitsLine text
  turns : Turns kinds missing left text

/-- Lines that can be written, and what they do to brackets that were opened before them. -/
structure FitLines (kinds : Brackets) (missing left : List Char) (lines : List Line) : Prop where
  each : ∀ shown ∈ lines, FitsLine shown.text
  turns : Turns kinds missing left (renderLines lines)

variable {kinds : Brackets} {missing next left : List Char}

namespace Fits

variable {first second text : String}

theorem append (front : Fits kinds missing next first) (back : Fits kinds next left second) :
    Fits kinds missing left (first ++ second) :=
  ⟨front.line.append back.line, front.turns.append back.turns⟩

theorem under (fits : Fits kinds missing left text) (below : List Char) :
    Fits kinds (missing ++ below) (left ++ below) text :=
  ⟨fits.line, fits.turns.under below⟩

/-- What every test says is looked through as it stands. -/
theorem fixed (line : FitsLine text) (read : missingBehind .all missing text.toList = some left) :
    Fits kinds missing left text :=
  ⟨line, .fixed read⟩

theorem empty : Fits kinds missing missing "" :=
  fixed (by decide) rfl

/-- Texts fit side by side with commas between them. -/
theorem join {pieces : List String} (each : ∀ piece ∈ pieces, Fits kinds [] [] piece) :
    Fits kinds [] [] (joinStrings ", " pieces) := by
  induction pieces with
  | nil => exact empty
  | cons piece rest ih =>
    obtain ⟨first, others⟩ := List.forall_mem_cons.mp each
    cases rest with
    | nil =>
      have same : joinStrings ", " [piece] = piece := String.ofList_toList
      rw [same]
      exact first
    | cons more rest =>
      have split : joinStrings ", " (piece :: more :: rest) =
          piece ++ ", " ++ joinStrings ", " (more :: rest) := by
        rw [← String.toList_inj]
        simp [joinStrings, joinWith]
      rw [split]
      exact (first.append (fixed (by decide) (by decide))).append (ih others)

/-- Numbers fit anywhere. -/
theorem number (number : Nat) : Fits kinds missing missing (toString number) := by
  have digits : ∀ c ∈ (toString number).toList, c.isDigit = true :=
    fun c member => isDigit_of_mem_toString member
  refine ⟨⟨fun broken => ?_, fun tab => ?_⟩, missingBehind_of_free (fun c member => ?_) _⟩
  · cases digits _ broken
  · cases digits _ (List.mem_of_head? tab)
  · rw [Bool.eq_false_iff]
    intro bracket
    have digit := digits c member
    have held := reads_all bracket
    simp only [Brackets.reads, Brackets.all, Bool.true_and, Bool.or_eq_true, beq_iff_eq] at held
    rcases held with (rfl | rfl) | rfl | rfl <;> cases digit

end Fits

namespace FitLines

variable {first second lines : List Line} {text : String}

theorem nil : FitLines kinds missing missing [] :=
  ⟨by simp, Fits.empty.turns⟩

theorem append (front : FitLines kinds missing next first)
    (back : FitLines kinds next left second) : FitLines kinds missing left (first ++ second) := by
  constructor
  · intro shown member
    exact (List.mem_append.mp member).elim (front.each shown) (back.each shown)
  · rw [renderLines_append]
    exact front.turns.append back.turns

/-- Tabs and line breaks are no brackets. -/
theorem turns_renderLines (lines : List Line) : missingBehind kinds missing
    (renderLines lines).toList = missingBehind kinds missing (lines.flatMap (·.text.toList)) := by
  induction lines generalizing missing with
  | nil => rfl
  | cons shown rest ih =>
    have tabs : ∀ c ∈ List.replicate shown.depth '\t', kinds.reads c = false := by
      intro c member
      rw [List.eq_of_mem_replicate member]
      simp [Brackets.reads]
    have stop : ∀ c ∈ ['\n'], kinds.reads c = false := by
      intro c member
      rw [List.mem_singleton.mp member]
      simp [Brackets.reads]
    rw [← List.singleton_append, renderLines_append, renderLines_singleton, String.toList_append,
      Line.toList_render, Line.chars]
    simp only [missingBehind_append, missingBehind_of_free tabs, missingBehind_of_free stop,
      Option.bind_some, Option.bind_assoc, List.flatMap_append, List.flatMap_singleton, ih]

theorem single (fits : Fits kinds missing left text) : FitLines kinds missing left (line text) := by
  constructor
  · intro shown member
    rw [List.mem_singleton.mp member]
    exact fits.line
  · rw [Turns, turns_renderLines, line, List.flatMap_singleton]
    exact fits.turns

/-- Brackets do not depend on how deep lines stand. -/
theorem inside (fit : FitLines kinds missing left lines) :
    FitLines kinds missing left (Scaffold.inside lines) := by
  constructor
  · intro shown member
    obtain ⟨inner, among, rfl⟩ := List.mem_map.mp member
    exact fit.each inner among
  · have turns := fit.turns
    rw [Turns, turns_renderLines] at turns ⊢
    rw [Scaffold.inside, List.flatMap_map]
    exact turns

theorem under (fit : FitLines kinds missing left lines) (below : List Char) :
    FitLines kinds (missing ++ below) (left ++ below) lines :=
  ⟨fit.each, fit.turns.under below⟩

/-- A block fits if its last line closes what its first one opens. -/
theorem block {opening closing : String} {opened : List Char} (front : Fits kinds [] opened opening)
    (body : FitLines kinds [] [] lines) (back : Fits kinds opened [] closing) :
    FitLines kinds [] [] (Scaffold.block opening lines closing) :=
  ((single front).append (body.inside.under opened)).append (single back)

/-- Lines that may be left out. -/
theorem optional (condition : Prop) [Decidable condition] (fit : FitLines kinds [] [] lines) :
    FitLines kinds [] [] (if condition then lines else []) := by
  split
  · exact fit
  · exact nil

theorem omitted (condition : Prop) [Decidable condition] (fit : FitLines kinds [] [] lines) :
    FitLines kinds [] [] (if condition then [] else lines) := by
  split
  · exact nil
  · exact fit

theorem flatMap {α : Type} {xs : List α} {shows : α → List Line}
    (each : ∀ x ∈ xs, FitLines kinds [] [] (shows x)) :
    FitLines kinds [] [] (xs.flatMap shows) := by
  induction xs with
  | nil => exact nil
  | cons x rest ih =>
    obtain ⟨first, others⟩ := List.forall_mem_cons.mp each
    exact first.append (ih others)

end FitLines

end Fits

section Strings

/-- The strings of a field. -/
def Field.strings (field : Field) : List String :=
  [field.name, field.type, field.value]

/-- The strings of a callee. -/
def Callee.strings (callee : Callee) : List String :=
  callee.name :: callee.fields.flatMap Field.strings

/-- The strings of a receiver and of what makes it. -/
def Receiver.strings (receiver : Receiver) : List String :=
  receiver.holder.strings ++ (receiver.constructor.map Callee.strings).getD []

/-- All strings of a plan. -/
def TestPlan.strings (plan : TestPlan) : List String :=
  [plan.testing, plan.package, plan.testName] ++ plan.target.strings
    ++ (plan.receiver.map Receiver.strings).getD []

end Strings

section Parts

/-- The strings of a field fit. -/
structure FieldFits (kinds : Brackets) (field : Field) : Prop where
  name : Fits kinds [] [] field.name
  type : Fits kinds [] [] field.type
  value : Fits kinds [] [] field.value

/-- The strings of a callee fit. -/
structure CalleeFits (kinds : Brackets) (callee : Callee) : Prop where
  name : Fits kinds [] [] callee.name
  args : ∀ arg ∈ callee.args, FieldFits kinds arg
  results : ∀ result ∈ callee.results, FieldFits kinds result

/-- The strings of a receiver fit, and those of what makes it. -/
structure ReceiverFits (kinds : Brackets) (receiver : Receiver) : Prop where
  holder : FieldFits kinds receiver.holder
  constructor : ∀ constructor ∈ receiver.constructor, CalleeFits kinds constructor

/-- The strings of a plan fit. -/
structure PlanFits (kinds : Brackets) (plan : TestPlan) : Prop where
  testing : Fits kinds [] [] plan.testing
  package : Fits kinds [] [] plan.package
  testName : Fits kinds [] [] plan.testName
  target : CalleeFits kinds plan.target
  receiver : ∀ receiver ∈ plan.receiver, ReceiverFits kinds receiver

variable {kinds : Brackets}

theorem fieldFits_of_strings {field : Field}
    (fit : ∀ text ∈ field.strings, Fits kinds [] [] text) : FieldFits kinds field := by
  simp only [Field.strings, List.forall_mem_cons] at fit
  exact ⟨fit.1, fit.2.1, fit.2.2.1⟩

theorem calleeFits_of_strings {callee : Callee}
    (fit : ∀ text ∈ callee.strings, Fits kinds [] [] text) : CalleeFits kinds callee := by
  obtain ⟨name, others⟩ := List.forall_mem_cons.mp fit
  have fields : ∀ field ∈ callee.fields, FieldFits kinds field := fun field member =>
    fieldFits_of_strings fun text held => others text (List.mem_flatMap.mpr ⟨field, member, held⟩)
  exact ⟨name, fun arg member => fields arg (List.mem_append_left _ member),
    fun result member => fields result (List.mem_append_right _ member)⟩

theorem receiverFits_of_strings {receiver : Receiver}
    (fit : ∀ text ∈ receiver.strings, Fits kinds [] [] text) : ReceiverFits kinds receiver := by
  obtain ⟨holder, others⟩ := List.forall_mem_append.mp fit
  refine ⟨fieldFits_of_strings holder, fun constructor makes => calleeFits_of_strings ?_⟩
  rwa [Option.mem_def.mp makes] at others

/-- If all strings of a plan fit, they fit wherever the plan has them. -/
theorem planFits_of_strings {plan : TestPlan}
    (fit : ∀ text ∈ plan.strings, Fits kinds [] [] text) : PlanFits kinds plan := by
  obtain ⟨front, others⟩ := List.forall_mem_append.mp fit
  obtain ⟨names, target⟩ := List.forall_mem_append.mp front
  simp only [List.forall_mem_cons] at names
  refine ⟨names.1, names.2.1, names.2.2.1, calleeFits_of_strings target,
    fun receiver held => receiverFits_of_strings ?_⟩
  rwa [Option.mem_def.mp held] at others

theorem fits_argument {field : Field} (fits : FieldFits kinds field) :
    Fits kinds [] [] field.argument := by
  have expression :
      Fits kinds [] [] (if field.isNamed then "tt." ++ field.name else field.value) := by
    split
    · exact (Fits.fixed (by decide) (by decide)).append fits.name
    · exact fits.value
  rw [Field.argument]
  split
  · exact expression.append (.fixed (by decide) (by decide))
  · exact expression

theorem fits_resultNames {results : List Field} (fit : ∀ result ∈ results, FieldFits kinds result) :
    Fits kinds [] [] (resultNames results) := by
  apply Fits.join
  intro piece member
  obtain ⟨result, among, rfl⟩ := List.mem_map.mp member
  exact (fit result among).name

theorem fits_qualifierText {package : String} (fits : Fits kinds [] [] package) :
    Fits kinds [] [] (qualifierText package) := by
  rw [qualifierText]
  split
  · exact .empty
  · exact fits.append (.fixed (by decide) (by decide))

theorem fits_wantName (index : Nat) : Fits kinds [] [] (wantName index) := by
  rw [wantName, numberedName]
  split
  · exact .fixed (by decide) (by decide)
  · exact (Fits.fixed (by decide) (by decide)).append (.number _)

/-- The arguments of a call stand between parentheses. -/
theorem fits_call {front : String} (fits : Fits kinds [] [] front) {args : List Field}
    (fit : ∀ arg ∈ args, FieldFits kinds arg) :
    Fits kinds [] [] (front ++ "(" ++ callArgs args ++ ")") := by
  have passed : Fits kinds [] [] (callArgs args) := by
    apply Fits.join
    intro piece member
    obtain ⟨arg, among, rfl⟩ := List.mem_map.mp member
    exact fits_argument (fit arg among)
  have opened : Fits kinds [] [')'] (front ++ "(") :=
    fits.append (.fixed (by decide) (by decide))
  exact (opened.append (passed.under [')'])).append (.fixed (by decide) (by decide))

/-- What is called gives its results to their names. -/
theorem fits_assignment {results : List Field} (fit : ∀ result ∈ results, FieldFits kinds result)
    {call : String} (fits : Fits kinds [] [] call) :
    Fits kinds [] [] (resultNames results ++ " := " ++ call) :=
  ((fits_resultNames fit).append (.fixed (by decide) (by decide))).append fits

/-- A field is declared by its name and its type. -/
theorem fits_declaration {name type : String} (first : Fits kinds [] [] name)
    (second : Fits kinds [] [] type) : Fits kinds [] [] (name ++ " " ++ type) :=
  (first.append (.fixed (by decide) (by decide))).append second

end Parts

section PlanLines

variable {kinds : Brackets}

/-- A line that every test has. -/
theorem fitLines_fixed {text : String} (line : FitsLine text)
    (read : missingBehind .all [] text.toList = some []) :
    FitLines kinds [] [] (Scaffold.line text) :=
  .single (.fixed line read)

/-- Lines between what opens a block in every test, and what closes it. -/
theorem fitLines_braces {opening : String} (line : FitsLine opening)
    (read : missingBehind .all [] opening.toList = some ['\x7d']) {body : List Line}
    (fit : FitLines kinds [] [] body) : FitLines kinds [] [] (block opening body "\x7d") :=
  .block (.fixed line read) fit (.fixed (by decide) (by decide))

theorem fitLines_paramLines {heading : String} (fits : Fits kinds [] [] heading) {args : List Field}
    (fit : ∀ arg ∈ args, FieldFits kinds arg) :
    FitLines kinds [] [] (paramLines heading args) := by
  rw [paramLines]
  split
  · exact .nil
  · apply (FitLines.single fits).append
    apply FitLines.flatMap
    intro arg member
    have fits := fit arg (List.mem_of_mem_filter member)
    exact .single (fits_declaration fits.name fits.type)

theorem fitLines_wantLines {results : List Field}
    (fit : ∀ result ∈ results, FieldFits kinds result) :
    FitLines kinds [] [] (wantLines results) := by
  apply FitLines.flatMap
  rintro ⟨index, result⟩ member
  have fits := fit result (List.mem_of_getElem? (mem_indexed.mp member))
  dsimp only
  split
  · exact fitLines_fixed (by decide) (by decide)
  · exact .single (fits_declaration (fits_wantName index) fits.type)

theorem fitLines_fieldLines {plan : TestPlan} (fits : PlanFits kinds plan) :
    FitLines kinds [] [] plan.fieldLines := by
  have made : ∀ arg ∈ plan.constructorArgs, FieldFits kinds arg := by
    intro arg member
    rw [TestPlan.constructorArgs] at member
    split at member
    · rename_i constructor found
      obtain ⟨receiver, held, makes⟩ := Option.bind_eq_some_iff.mp found
      exact ((fits.receiver receiver held).constructor constructor makes).args arg member
    · cases member
  have constructed : FitLines kinds [] []
      (paramLines "// Named input parameters for receiver constructor." plan.constructorArgs) :=
    fitLines_paramLines (.fixed (by decide) (by decide)) made
  have passed : FitLines kinds [] []
      (paramLines "// Named input parameters for target function." plan.target.args) :=
    fitLines_paramLines (.fixed (by decide) (by decide)) fits.target.args
  exact (constructed.append passed).append (fitLines_wantLines fits.target.results)

/-- One brace closes the type of the table, and another opens its rows. -/
theorem fitLines_tableLines {plan : TestPlan} (fits : PlanFits kinds plan) :
    FitLines kinds [] [] (tableLines plan) := by
  have named : FitLines kinds [] [] (line "name string // description of this test case") :=
    fitLines_fixed (by decide) (by decide)
  have declared := named.append (fitLines_fieldLines fits)
  have opened : FitLines kinds [] ['\x7d'] (line "tests := []struct \x7b") :=
    .single (.fixed (by decide) (by decide))
  have turned : FitLines kinds ['\x7d'] ['\x7d'] (line "\x7d\x7b") :=
    .single (.fixed (by decide) (by decide))
  have rows : FitLines kinds [] [] (line "// TODO: Add test cases.") :=
    fitLines_fixed (by decide) (by decide)
  have closed : FitLines kinds ['\x7d'] [] (line "\x7d") :=
    .single (.fixed (by decide) (by decide))
  rw [tableLines_eq, block]
  exact (opened.append (declared.inside.under ['\x7d'])).append
    ((turned.append (rows.inside.under ['\x7d'])).append closed)

theorem fitLines_receiverLines {package : String} (qualifies : Fits kinds [] [] package)
    {receiver : Receiver} (fits : ReceiverFits kinds receiver) :
    FitLines kinds [] [] (receiverLines package receiver) := by
  rw [receiverLines]
  split
  · rename_i constructor makes
    have made := fits.constructor constructor makes
    have front : Fits kinds [] []
        (resultNames constructor.results ++ " := " ++ qualifierText package ++ constructor.name) :=
      (fits_assignment made.results (fits_qualifierText qualifies)).append made.name
    exact (FitLines.single (fits_call front made.args)).append (.optional _
      (fitLines_braces (by decide) (by decide) (fitLines_fixed (by decide) (by decide))))
  · have declared : Fits kinds [] []
        ("var " ++ receiver.holder.name ++ " " ++ receiver.holder.type) :=
      fits_declaration ((Fits.fixed (by decide) (by decide)).append fits.holder.name)
        fits.holder.type
    exact (fitLines_fixed (by decide) (by decide)).append (.single declared)

theorem fitLines_callLine {plan : TestPlan} (fits : PlanFits kinds plan) :
    FitLines kinds [] [] (callLine plan) := by
  -- Whatever stands in front of the function's name, with results or without.
  have called : ∀ {owner : String}, Fits kinds [] [] owner → FitLines kinds [] []
      (let call := owner ++ plan.target.name ++ "(" ++ callArgs plan.target.args ++ ")"
      if plan.target.results.isEmpty then line call
      else line (resultNames plan.target.results ++ " := " ++ call)) := by
    intro owner owned
    have call := fits_call (owned.append fits.target.name) fits.target.args
    dsimp only
    split
    · exact .single call
    · exact .single (fits_assignment fits.target.results call)
  rw [callLine]
  cases held : plan.receiver with
  | some receiver =>
    have owned := (fits.receiver receiver held).holder.name
    exact called (owned.append (.fixed (by decide) (by decide)))
  | none => exact called (fits_qualifierText fits.package)

/-- A message names the tested function, between parentheses that belong to the message. -/
theorem fits_message {name lead trail : String} (fits : Fits kinds [] [] name)
    (front : Fits kinds [] [')'] lead) (back : Fits kinds [')'] [] trail) :
    Fits kinds [] [] (lead ++ name ++ trail) :=
  (front.append (fits.under [')'])).append back

theorem fitLines_errorLines {target : Callee} (fits : CalleeFits kinds target) :
    FitLines kinds [] [] (errorLines target) := by
  have failed : Fits kinds [] [] ("t.Errorf(\"" ++ target.name ++ "() failed: %v\", gotErr)") :=
    fits_message fits.name (.fixed (by decide) (by decide)) (.fixed (by decide) (by decide))
  have succeeded :
      Fits kinds [] [] ("t.Fatal(\"" ++ target.name ++ "() succeeded unexpectedly\")") :=
    fits_message fits.name (.fixed (by decide) (by decide)) (.fixed (by decide) (by decide))
  have unwanted := fitLines_braces (by decide : FitsLine "if !tt.wantErr \x7b") (by decide)
    (.single failed)
  have returned : FitLines kinds [] [] (line "return") := fitLines_fixed (by decide) (by decide)
  have stopped := fitLines_braces (by decide : FitsLine "if gotErr != nil \x7b") (by decide)
    (unwanted.append returned)
  exact .optional _ (stopped.append (fitLines_braces (by decide) (by decide) (.single succeeded)))

theorem fitLines_compareLines {target : Callee} (fits : CalleeFits kinds target) (index : Nat)
    {result : Field} (compared : FieldFits kinds result) :
    FitLines kinds [] [] (compareLines target index result) := by
  -- The result and what is wanted of it stand between the same parentheses as the name.
  have named : Fits kinds [] [')'] ("t.Errorf(\"" ++ target.name ++ "() = %v, want %v\", ") :=
    (Fits.append (.fixed (by decide) (by decide)) (fits.name.under [')'])).append
      (.fixed (by decide) (by decide))
  have shown : Fits kinds [] [')']
      ("t.Errorf(\"" ++ target.name ++ "() = %v, want %v\", " ++ result.name ++ ", tt.") :=
    (named.append (compared.name.under [')'])).append (.fixed (by decide) (by decide))
  have wanted : Fits kinds [] [] ("t.Errorf(\"" ++ target.name ++ "() = %v, want %v\", "
      ++ result.name ++ ", tt." ++ wantName index ++ ")") :=
    (shown.append ((fits_wantName index).under [')'])).append (.fixed (by decide) (by decide))
  exact .omitted _ (fitLines_braces (by decide) (by decide) (.single wanted))

theorem fitLines_comparisonLines {target : Callee} (fits : CalleeFits kinds target) :
    FitLines kinds [] [] (comparisonLines target) := by
  apply FitLines.omitted
  apply (fitLines_fixed (by decide) (by decide)).append
  apply FitLines.flatMap
  intro entry member
  exact fitLines_compareLines fits entry.1
    (fits.results entry.2 (List.mem_of_getElem? (mem_indexed.mp member)))

theorem fitLines_caseLines {plan : TestPlan} (fits : PlanFits kinds plan) :
    FitLines kinds [] [] (caseLines plan) := by
  rw [caseLines]
  refine ((FitLines.append ?_ (fitLines_callLine fits)).append (fitLines_errorLines fits.target))
    |>.append (fitLines_comparisonLines fits.target)
  cases held : plan.receiver with
  | some receiver => exact fitLines_receiverLines fits.package (fits.receiver receiver held)
  | none => exact .nil

/-- A test has no line that is broken or indented by a string, and all its brackets pair up. -/
theorem fitLines_lines {plan : TestPlan} (fits : PlanFits kinds plan) :
    FitLines kinds [] [] plan.lines := by
  -- The function for a test case opens a parenthesis in front of its brace.
  have run : Fits kinds [] ['\x7d', ')']
      ("t.Run(tt.name, func(t *" ++ plan.testing ++ ".T) \x7b") :=
    ((Fits.fixed (by decide) (by decide)).append (fits.testing.under [')', ')'])).append
      (.fixed (by decide) (by decide))
  have function : Fits kinds [] ['\x7d']
      ("func " ++ plan.testName ++ "(t *" ++ plan.testing ++ ".T) \x7b") := by
    have head : Fits kinds [] [')'] ("func " ++ plan.testName ++ "(t *") :=
      ((Fits.fixed (by decide) (by decide)).append fits.testName).append
        (.fixed (by decide) (by decide))
    exact (head.append (fits.testing.under [')'])).append (.fixed (by decide) (by decide))
  have cases : FitLines kinds [] []
      (block ("t.Run(tt.name, func(t *" ++ plan.testing ++ ".T) \x7b") (caseLines plan) "\x7d)") :=
    .block run (fitLines_caseLines fits) (.fixed (by decide) (by decide))
  have loop := fitLines_braces (by decide : FitsLine "for _, tt := range tests \x7b")
    (by decide) cases
  have body := (fitLines_tableLines fits).append loop
  exact (fitLines_fixed (by decide) (by decide)).append
    (.block function body (.fixed (by decide) (by decide)))

end PlanLines

end Scaffold
