import Scaffold.Proofs.Test.Bindings

/-! Tests as scripts: what each line is made of, which names it binds and where they are known. -/

namespace Scaffold

open Go

/-- A stretch of a line: what every test says, what the plan gives, or a name in some role. -/
inductive Word
  | fixed (text : String)
  /-- A remark for the reader, up to the end of the line. -/
  | comment (text : String)
  | given (snippet : Snippet)
  /-- A field of the test cases, where it is declared. -/
  | declares (field : String)
  /-- The value that the current test case has for a field. -/
  | reads (field : String)
  /-- A variable, where it is bound. -/
  | binds (name : String)
  | uses (name : String)
  deriving DecidableEq, Repr

/-- The text of a stretch of a line. -/
def Word.write (qualifier : PackageRef → String) : Word → String
  | .fixed text | .comment text => text
  | .given snippet => snippet.write qualifier
  | .declares name | .binds name | .uses name => name
  | .reads field => "tt." ++ field

/-- The text of some stretches of a line. -/
def writeWords (qualifier : PackageRef → String) : List Word → String
  | [] => ""
  | word :: rest => word.write qualifier ++ writeWords qualifier rest

/-- The stretches with commas between them. -/
def listed (items : List (List Word)) : List Word :=
  List.intercalate [.fixed ", "] items

/-- What the plan gives, put into a line. -/
def givens (snippets : List Snippet) : List Word :=
  snippets.map Word.given

/-- The lines of a test: each binds names for the lines behind it, and blocks open names inside. -/
inductive Script
  | done
  | say (words : List Word) (binds : List String) (rest : Script)
  | nest (opens : List String) (body rest : Script)
  deriving Repr

namespace Script

/-- The lines of one script and then those of another. -/
def append : Script → Script → Script
  | .done, other => other
  | .say words binds rest, other => .say words binds (rest.append other)
  | .nest opens body rest, other => .nest opens body (rest.append other)

instance : Append Script :=
  ⟨append⟩

/-- The lines for each element in turn. -/
def forEach {α : Type} (script : α → Script) : List α → Script
  | [] => .done
  | x :: rest => script x ++ forEach script rest

/-- The lines as they are written. -/
def lines (qualifier : PackageRef → String) : Script → List Line
  | .done => []
  | .say words _ rest => Scaffold.line (writeWords qualifier words) ++ rest.lines qualifier
  | .nest _ body rest => inside (body.lines qualifier) ++ rest.lines qualifier

/-- What is said on each line. -/
def sentences : Script → List (List Word)
  | .done => []
  | .say words _ rest => words :: rest.sentences
  | .nest _ body rest => body.sentences ++ rest.sentences

/-- The names that are bound outside of all blocks. -/
def bound : Script → List String
  | .done => []
  | .say _ binds rest => binds ++ rest.bound
  | .nest _ _ rest => rest.bound

/--
Whether a property holds of every line and the names that are known on it.

A name that a line binds is known on the lines behind it, and inside their blocks; a name that a
block opens is known in the block.
-/
def Throughout (holds : List String → List Word → Prop) (known : List String) : Script → Prop
  | .done => True
  | .say words binds rest => holds known words ∧ rest.Throughout holds (known ++ binds)
  | .nest opens body rest => body.Throughout holds (known ++ opens) ∧ rest.Throughout holds known

/-- A line that binds nothing. -/
def said (words : List Word) : Script :=
  .say words [] .done

/-- Lines between an opening and a closing line, with the names that are opened for them. -/
def blockOf (opening : List Word) (opens : List String) (body : Script) (closing : String) :
    Script :=
  .say opening [] (.nest opens body (said [.fixed closing]))

section Append

variable (qualifier : PackageRef → String) {holds : List String → List Word → Prop}
  {known : List String}

theorem append_eq (first second : Script) : first ++ second = first.append second :=
  rfl

@[simp] theorem lines_append (first second : Script) :
    (first ++ second).lines qualifier = first.lines qualifier ++ second.lines qualifier := by
  rw [append_eq]
  induction first with
  | done => rfl
  | say words binds rest ih => rw [append, lines, lines, ih, List.append_assoc]
  | nest opens body rest _ ih => rw [append, lines, lines, ih, List.append_assoc]

@[simp] theorem sentences_append (first second : Script) :
    (first ++ second).sentences = first.sentences ++ second.sentences := by
  rw [append_eq]
  induction first with
  | done => rfl
  | say words binds rest ih => rw [append, sentences, sentences, ih, List.cons_append]
  | nest opens body rest _ ih => rw [append, sentences, sentences, ih, List.append_assoc]

@[simp] theorem bound_append (first second : Script) :
    (first ++ second).bound = first.bound ++ second.bound := by
  rw [append_eq]
  induction first with
  | done => rfl
  | say words binds rest ih => rw [append, bound, bound, ih, List.append_assoc]
  | nest opens body rest _ ih => rw [append, bound, bound, ih]

/-- Behind some lines, the names that they bind are known too. -/
@[simp] theorem throughout_append (first second : Script) :
    (first ++ second).Throughout holds known ↔
      first.Throughout holds known ∧ second.Throughout holds (known ++ first.bound) := by
  rw [append_eq]
  induction first generalizing known with
  | done => simp [append, Throughout, bound]
  | say words binds rest ih =>
    rw [append, Throughout, Throughout, ih, bound, List.append_assoc, and_assoc]
  | nest opens body rest _ ih => rw [append, Throughout, Throughout, ih, bound, and_assoc]

end Append

section Parts

variable {qualifier : PackageRef → String} {holds : List String → List Word → Prop}
  {known : List String}

@[simp] theorem lines_said (words : List Word) :
    (said words).lines qualifier = line (writeWords qualifier words) :=
  List.append_nil _

@[simp] theorem lines_blockOf (opening : List Word) (opens : List String) (body : Script)
    (closing : String) : (blockOf opening opens body closing).lines qualifier =
      block (writeWords qualifier opening) (body.lines qualifier) closing := by
  rw [blockOf, lines, lines, lines_said, block, List.append_assoc]
  congr 2
  exact congrArg Scaffold.line String.append_empty

@[simp] theorem bound_said (words : List Word) : (said words).bound = [] :=
  rfl

@[simp] theorem bound_blockOf (opening : List Word) (opens : List String) (body : Script)
    (closing : String) : (blockOf opening opens body closing).bound = [] :=
  rfl

@[simp] theorem throughout_done : done.Throughout holds known :=
  trivial

@[simp] theorem throughout_say (words : List Word) (binds : List String) (rest : Script) :
    (say words binds rest).Throughout holds known ↔
      holds known words ∧ rest.Throughout holds (known ++ binds) :=
  Iff.rfl

@[simp] theorem throughout_nest (opens : List String) (body rest : Script) :
    (nest opens body rest).Throughout holds known ↔
      body.Throughout holds (known ++ opens) ∧ rest.Throughout holds known :=
  Iff.rfl

@[simp] theorem throughout_said (words : List Word) :
    (said words).Throughout holds known ↔ holds known words := by
  simp [said, Throughout]

@[simp] theorem throughout_blockOf (opening : List Word) (opens : List String) (body : Script)
    (closing : String) : (blockOf opening opens body closing).Throughout holds known ↔
      holds known opening ∧ body.Throughout holds (known ++ opens) ∧
        holds known [.fixed closing] := by
  simp [blockOf, Throughout]

section Each

variable {α : Type} {script : α → Script} {xs : List α}

/-- Lines in turn are written in turn. -/
@[simp] theorem lines_forEach :
    (forEach script xs).lines qualifier = xs.flatMap fun x => (script x).lines qualifier := by
  induction xs with
  | nil => rfl
  | cons x rest ih => rw [forEach, lines_append, ih, List.flatMap_cons]

@[simp] theorem sentences_forEach :
    (forEach script xs).sentences = xs.flatMap fun x => (script x).sentences := by
  induction xs with
  | nil => rfl
  | cons x rest ih => rw [forEach, sentences_append, ih, List.flatMap_cons]

theorem bound_forEach (unbound : ∀ x, (script x).bound = []) : (forEach script xs).bound = [] := by
  induction xs with
  | nil => rfl
  | cons x rest ih => rw [forEach, bound_append, unbound, ih, List.append_nil]

/-- Lines that bind nothing for each other are looked at one by one. -/
theorem throughout_forEach (unbound : ∀ x, (script x).bound = []) :
    (forEach script xs).Throughout holds known ↔ ∀ x ∈ xs, (script x).Throughout holds known := by
  induction xs with
  | nil => simp [forEach]
  | cons x rest ih =>
    rw [forEach, throughout_append, unbound, List.append_nil, ih, List.forall_mem_cons]

end Each

end Parts

end Script

section Listed

@[simp] theorem listed_nil : listed [] = [] :=
  rfl

@[simp] theorem listed_singleton (item : List Word) : listed [item] = item := by
  simp [listed, List.intercalate]

/-- A comma stands between two items. -/
@[simp] theorem listed_cons_cons (item next : List Word) (more : List (List Word)) :
    listed (item :: next :: more) = item ++ .fixed ", " :: listed (next :: more) := by
  simp [listed, List.intercalate]

end Listed

section Written

variable (qualifier : PackageRef → String)

@[simp] theorem writeWords_append (first second : List Word) :
    writeWords qualifier (first ++ second) =
      writeWords qualifier first ++ writeWords qualifier second := by
  induction first with
  | nil => exact String.empty_append.symm
  | cons word rest ih => rw [List.cons_append, writeWords, writeWords, ih, String.append_assoc]

@[simp] theorem writeWords_givens (snippets : List Snippet) :
    writeWords qualifier (givens snippets) = writeSnippets qualifier snippets := by
  induction snippets with
  | nil => rfl
  | cons snippet rest ih =>
    rw [givens, List.map_cons, writeWords, writeSnippets, ← ih]
    rfl

@[simp] theorem writeWords_listed (items : List (List Word)) :
    writeWords qualifier (listed items) =
      joinStrings ", " (items.map (writeWords qualifier)) := by
  -- A comma is put between two items by both, so the recursion looks at two items at a time.
  induction items with
  | nil => rfl
  | cons item rest ih =>
    cases rest with
    | nil => simp [joinStrings, joinWith]
    | cons next more =>
      rw [listed_cons_cons, writeWords_append, writeWords, ih, joinStrings, joinStrings]
      simp only [List.map_cons, joinWith, String.ofList_append, String.ofList_toList,
        String.append_assoc]
      rfl

end Written

section Parts

open Script

/-- Whether a test case has a field for a parameter. -/
def FieldDraft.isNamed (draft : FieldDraft) : Bool :=
  !draft.name.isEmpty

/-- What is passed for a parameter; the last of a variadic function is spread. -/
def FieldDraft.passed (draft : FieldDraft) : List Word :=
  (if draft.isNamed then [.reads draft.name] else givens draft.value)
    ++ if draft.variadic then [.fixed "..."] else []

/-- A call with what is passed, behind what names the function. -/
def callWords (owner : List Word) (passed : List (List Word)) : List Word :=
  owner ++ .fixed "(" :: listed passed ++ [.fixed ")"]

/-- The call of a function with what is passed for its parameters. -/
def CalleeDraft.call (owner : List Word) (draft : CalleeDraft) : List Word :=
  callWords owner (draft.args.map FieldDraft.passed)

/-- Names that are bound by one line. -/
def bindings (names : List String) : List Word :=
  listed (names.map fun name => [.binds name])

/-- The declaration of a field with the type that is written for it. -/
def fieldWords (name : String) (type : List Word) : List Word :=
  .declares name :: .fixed " " :: type

/-- The fields for named parameters under a heading, if there are any. -/
def paramScript (heading : String) (args : List FieldDraft) : Script :=
  match args.filter FieldDraft.isNamed with
  | [] => .done
  | named => said [.comment heading]
    ++ forEach (fun arg => said (fieldWords arg.name (givens arg.type))) named

/-- The field for what a result is expected to be. -/
def expectedWords (index : Nat) (result : FieldDraft) : List Word :=
  if result.name == "gotErr" then fieldWords "wantErr" [.fixed "bool"]
  else fieldWords (wantName index) (givens result.type)

/-- The fields for what the results are expected to be. -/
def wantScript (results : List FieldDraft) : Script :=
  forEach (fun (index, result) => said (expectedWords index result)) (indexed results)

/-- The lines that make the receiver, or leave that to the reader. -/
def ReceiverDraft.script (qualifier : PackageRef → String) (subject : PackageRef)
    (draft : ReceiverDraft) : Script :=
  match draft.constructor with
  | some constructor =>
    let names := constructor.results.map FieldDraft.name
    let call := constructor.call [.given (.name subject constructor.name)]
    .say (bindings names ++ .fixed " := " :: call) names
      (if (constructor.written qualifier).endsInError then
        blockOf [.fixed "if ", .uses "err", .fixed " != nil \x7b"] []
          (said [.uses "t", .fixed ".Fatalf(\"could not construct receiver type: %v\", ",
            .uses "err", .fixed ")"]) "\x7d"
      else .done)
  | none => said [.comment "// TODO: construct the receiver type."]
    ++ .say (.fixed "var " :: .binds draft.holder.name :: .fixed " " :: givens draft.holder.type)
      [draft.holder.name] .done

/-- The lines that make the receiver, if there is one. -/
def PlanDraft.receiverScript (qualifier : PackageRef → String) (draft : PlanDraft) : Script :=
  match draft.receiver with
  | some receiver => receiver.script qualifier draft.subject
  | none => .done

/-- What names the tested function: its package, or the variable that holds the receiver. -/
def PlanDraft.owner (draft : PlanDraft) : List Word :=
  match draft.receiver with
  | some receiver => [.uses receiver.holder.name, .fixed ".", .given (.text draft.target.name)]
  | none => [.given (.name draft.subject draft.target.name)]

/-- The line that calls the tested function. -/
def PlanDraft.callScript (draft : PlanDraft) : Script :=
  let names := draft.target.results.map FieldDraft.name
  let call := draft.target.call draft.owner
  if draft.target.results.isEmpty then said call
  else .say (bindings names ++ .fixed " := " :: call) names .done

/-- The lines that compare the error with what is expected. -/
def errorScript (qualifier : PackageRef → String) (target : CalleeDraft) : Script :=
  if (target.written qualifier).endsInError then
    blockOf [.fixed "if ", .uses "gotErr", .fixed " != nil \x7b"] []
        (blockOf [.fixed "if !", .reads "wantErr", .fixed " \x7b"] []
            (said [.uses "t", .fixed ".Errorf(\"", .given (.text target.name),
              .fixed "() failed: %v\", ", .uses "gotErr", .fixed ")"]) "\x7d"
          ++ said [.fixed "return"]) "\x7d"
      ++ blockOf [.fixed "if ", .reads "wantErr", .fixed " \x7b"] []
        (said [.uses "t", .fixed ".Fatal(\"", .given (.text target.name),
          .fixed "() succeeded unexpectedly\")"]) "\x7d"
  else .done

/-- The comparison of a result with what is expected of it. -/
def comparisonWords (function : String) (index : Nat) (got : String) : List Word :=
  [.uses "t", .fixed ".Errorf(\"", .given (.text function), .fixed "() = %v, want %v\", ",
    .uses got, .fixed ", ", .reads (wantName index), .fixed ")"]

/-- The lines that compare one result with what is expected. -/
def compareScript (target : CalleeDraft) (index : Nat) (result : FieldDraft) : Script :=
  if result.name == "gotErr" then .done
  else blockOf [.fixed "if true \x7b"] []
    (said (comparisonWords target.name index result.name)) "\x7d"

/-- The lines that compare the results; an error at the end is compared elsewhere. -/
def comparisonScript (qualifier : PackageRef → String) (target : CalleeDraft) : Script :=
  let errors := if (target.written qualifier).endsInError then 1 else 0
  if target.results.length - errors = 0 then .done
  else said [.comment "// TODO: update the condition below to compare got with tt.want."]
    ++ forEach (fun (index, result) => compareScript target index result) (indexed target.results)

/-- The parameters of the constructor, if there is one. -/
def PlanDraft.constructorArgs (draft : PlanDraft) : List FieldDraft :=
  match draft.receiver.bind ReceiverDraft.constructor with
  | some constructor => constructor.args
  | none => []

/-- The fields of the test cases. -/
def PlanDraft.fieldScript (draft : PlanDraft) : Script :=
  said (fieldWords "name" [.fixed "string ", .comment "// description of this test case"])
    ++ paramScript "// Named input parameters for receiver constructor." draft.constructorArgs
    ++ paramScript "// Named input parameters for target function." draft.target.args
    ++ wantScript draft.target.results

/-- The table of test cases. -/
def PlanDraft.tableScript (draft : PlanDraft) : Script :=
  -- The variable is known behind the whole statement, and so not inside the type of its value.
  .say [.binds "tests", .fixed " := []struct \x7b"] [] (.nest [] draft.fieldScript
    (.say [.fixed "\x7d\x7b"] [] (.nest [] (said [.comment "// TODO: Add test cases."])
      (.say [.fixed "\x7d"] ["tests"] .done))))

/-- The lines run for each test case. -/
def PlanDraft.caseScript (qualifier : PackageRef → String) (draft : PlanDraft) : Script :=
  draft.receiverScript qualifier ++ draft.callScript ++ errorScript qualifier draft.target
    ++ comparisonScript qualifier draft.target

/-- The parameter of a test and of its cases, and the brace behind it. -/
def testParameter : List Word :=
  [.binds "t", .fixed " *", .given (.member .testing "T"), .fixed ") \x7b"]

/-- A generated test as a script. -/
def PlanDraft.script (qualifier : PackageRef → String) (draft : PlanDraft) : Script :=
  said [] ++ blockOf
    (.fixed "func " :: .given (.text draft.testName) :: .fixed "(" :: testParameter) ["t"]
    (draft.tableScript
      ++ blockOf [.fixed "for _, ", .binds "tt", .fixed " := range ", .uses "tests", .fixed " \x7b"]
        ["tt"]
        (blockOf ([.uses "t", .fixed ".Run(", .reads "name", .fixed ", func("] ++ testParameter)
          ["t"] (draft.caseScript qualifier) "\x7d)")
        "\x7d")
    "\x7d"

end Parts

section Bound

open Script

/-- Fields are no variables. -/
@[simp] theorem bound_paramScript (heading : String) (args : List FieldDraft) :
    (paramScript heading args).bound = [] := by
  rw [paramScript]
  split
  · rfl
  · rw [bound_append, bound_said, bound_forEach fun _ => rfl, List.append_nil]

@[simp] theorem bound_wantScript (results : List FieldDraft) : (wantScript results).bound = [] :=
  bound_forEach fun _ => rfl

@[simp] theorem bound_fieldScript (draft : PlanDraft) : draft.fieldScript.bound = [] := by
  simp [PlanDraft.fieldScript]

/-- The names that are bound for the receiver. -/
def PlanDraft.receiverNames (draft : PlanDraft) : List String :=
  match draft.receiver with
  | some ⟨_, some constructor⟩ => constructor.results.map FieldDraft.name
  | some ⟨holder, none⟩ => [holder.name]
  | none => []

variable (qualifier : PackageRef → String)

@[simp] theorem bound_receiverScript (draft : PlanDraft) :
    (draft.receiverScript qualifier).bound = draft.receiverNames := by
  obtain ⟨subject, testName, target, receiver⟩ := draft
  rcases receiver with _ | ⟨holder, _ | constructor⟩
  · rfl
  · rfl
  · -- Behind the line that binds them there is at most a block.
    dsimp only [PlanDraft.receiverScript, ReceiverDraft.script, bound, PlanDraft.receiverNames]
    split <;> exact List.append_nil _

@[simp] theorem bound_callScript (draft : PlanDraft) :
    draft.callScript.bound = draft.target.results.map FieldDraft.name := by
  rw [PlanDraft.callScript]
  split
  · rename_i none
    rw [List.isEmpty_iff.mp none]
    rfl
  · exact List.append_nil _

@[simp] theorem bound_errorScript (target : CalleeDraft) :
    (errorScript qualifier target).bound = [] := by
  rw [errorScript]
  split <;> rfl

@[simp] theorem bound_compareScript (target : CalleeDraft) (index : Nat) (result : FieldDraft) :
    (compareScript target index result).bound = [] := by
  rw [compareScript]
  split <;> rfl

/-- Unless there is nothing to compare, each result has its lines. -/
theorem comparisonScript_cases (target : CalleeDraft) :
    comparisonScript qualifier target = .done ∨
      comparisonScript qualifier target =
        said [.comment "// TODO: update the condition below to compare got with tt.want."]
          ++ forEach (fun (index, result) => compareScript target index result)
            (indexed target.results) := by
  rw [comparisonScript]
  generalize (if (target.written qualifier).endsInError then 1 else 0) = errors
  dsimp only
  split
  · exact .inl rfl
  · exact .inr rfl

@[simp] theorem bound_comparisonScript (target : CalleeDraft) :
    (comparisonScript qualifier target).bound = [] := by
  rcases comparisonScript_cases qualifier target with same | same <;> rw [same]
  · rfl
  · rw [bound_append, bound_said, bound_forEach fun entry => bound_compareScript _ _ _,
      List.append_nil]

/-- The body of a test case binds the names for the receiver and for the results. -/
theorem bound_caseScript (draft : PlanDraft) :
    (draft.caseScript qualifier).bound = (draft.written qualifier).boundNames := by
  obtain ⟨subject, testName, target, receiver⟩ := draft
  simp only [PlanDraft.caseScript, bound_append, bound_receiverScript, bound_callScript,
    bound_errorScript, bound_comparisonScript, List.append_nil, TestPlan.boundNames]
  congr 1
  · rcases receiver with _ | ⟨holder, _ | constructor⟩
    · rfl
    · rfl
    · exact (names_written qualifier constructor.results).symm
  · exact (names_written qualifier target.results).symm

end Bound

section Lines

open Script

variable (qualifier : PackageRef → String)

theorem write_passed (draft : FieldDraft) :
    writeWords qualifier draft.passed = (draft.written qualifier).argument := by
  have named : (draft.written qualifier).isNamed = draft.isNamed := rfl
  rw [FieldDraft.passed, Field.argument, named, writeWords_append]
  cases draft.isNamed <;> cases held : draft.variadic <;>
    simp [FieldDraft.written, writeWords, Word.write, held]

theorem write_call (owner : List Word) (draft : CalleeDraft) :
    writeWords qualifier (draft.call owner) = writeWords qualifier owner ++ "("
      ++ callArgs (draft.written qualifier).args ++ ")" := by
  have args : (draft.args.map FieldDraft.passed).map (writeWords qualifier) =
      (draft.written qualifier).args.map Field.argument := by
    rw [CalleeDraft.written, List.map_map, List.map_map]
    exact List.map_congr_left fun arg _ => write_passed qualifier arg
  rw [CalleeDraft.call, callWords, List.append_assoc, writeWords_append, List.cons_append,
    writeWords, writeWords_append, writeWords_listed, args, callArgs]
  simp only [writeWords, Word.write, String.append_empty, String.append_assoc]

theorem write_bindings (names : List String) :
    writeWords qualifier (bindings names) = joinStrings ", " names := by
  rw [bindings, writeWords_listed, List.map_map]
  congr 1
  exact (List.map_congr_left fun name _ => String.append_empty).trans (List.map_id _)

theorem write_fieldWords (name : String) (type : List Word) :
    writeWords qualifier (fieldWords name type) = name ++ " " ++ writeWords qualifier type := by
  rw [fieldWords, writeWords, writeWords, String.append_assoc]
  rfl

theorem lines_paramScript (heading : String) (args : List FieldDraft) :
    (paramScript heading args).lines qualifier =
      paramLines heading (args.map (FieldDraft.written qualifier)) := by
  have named : (args.map (FieldDraft.written qualifier)).filter Field.isNamed =
      (args.filter FieldDraft.isNamed).map (FieldDraft.written qualifier) :=
    List.filter_map
  rw [paramScript, paramLines, named]
  split
  · rename_i none
    rw [none]
    rfl
  · rename_i some
    split
    · rename_i none
      exact absurd (List.map_eq_nil_iff.mp none) some
    · rw [lines_append, lines_said, lines_forEach, List.flatMap_map]
      congr 1
      · exact congrArg line String.append_empty
      · refine List.flatMap_congr fun arg _ => ?_
        rw [lines_said, write_fieldWords, writeWords_givens]
        rfl

theorem lines_wantScript (results : List FieldDraft) : (wantScript results).lines qualifier =
    wantLines (results.map (FieldDraft.written qualifier)) := by
  rw [wantScript, wantLines, lines_forEach, indexed_map, List.flatMap_map]
  refine List.flatMap_congr fun entry _ => ?_
  obtain ⟨index, result⟩ := entry
  have name : (result.written qualifier).name = result.name := rfl
  dsimp only
  rw [lines_said, expectedWords, name]
  split
  · rfl
  · rw [write_fieldWords, writeWords_givens]
    rfl

/-- A line that binds names to the results of a call. -/
theorem write_bound_call (results : List FieldDraft) (owner : List Word) (callee : CalleeDraft) :
    writeWords qualifier
        (bindings (results.map FieldDraft.name) ++ .fixed " := " :: callee.call owner) =
      resultNames (results.map (FieldDraft.written qualifier)) ++ " := "
        ++ writeWords qualifier (callee.call owner) := by
  rw [writeWords_append, write_bindings, resultNames_written, writeWords, String.append_assoc]
  rfl

/-- The name of a function of a package is written behind its qualifier. -/
theorem write_member (package : PackageRef) (name : String) :
    writeWords qualifier [.given (.name package name)] =
      qualifierText (qualifier package) ++ name := by
  rw [qualifierText_append]
  exact String.append_empty

theorem lines_receiver (subject : PackageRef) (draft : ReceiverDraft) :
    (draft.script qualifier subject).lines qualifier =
      receiverLines (qualifier subject) (draft.written qualifier) := by
  obtain ⟨holder, constructor⟩ := draft
  rw [ReceiverDraft.script, receiverLines, ReceiverDraft.written]
  cases constructor with
  | none =>
    dsimp only [Option.map_none]
    rw [lines_append, lines_said, lines, lines, List.append_nil]
    congr 2
    simp only [writeWords, writeWords_givens, Word.write, FieldDraft.written]
    simp [← String.toList_inj]
  | some constructor =>
    dsimp only [Option.map_some]
    rw [lines, write_bound_call, write_call, write_member]
    congr 1
    · simp [CalleeDraft.written, String.append_assoc]
    · split
      · rw [lines_blockOf]
        rfl
      · rfl

theorem write_owner (draft : PlanDraft) : writeWords qualifier draft.owner =
    (match (draft.written qualifier).receiver with
      | some receiver => receiver.holder.name ++ "."
      | none => qualifierText (qualifier draft.subject)) ++ draft.target.name := by
  obtain ⟨subject, testName, target, receiver⟩ := draft
  cases receiver with
  | none => exact write_member qualifier subject target.name
  | some receiver => simp [PlanDraft.owner, PlanDraft.written, ReceiverDraft.written,
      FieldDraft.written, writeWords, Word.write, Snippet.write, String.append_assoc]

theorem lines_callScript (draft : PlanDraft) :
    draft.callScript.lines qualifier = callLine (draft.written qualifier) := by
  have call : writeWords qualifier (draft.target.call draft.owner) =
      writeWords qualifier draft.owner ++ "(" ++ callArgs (draft.target.written qualifier).args
        ++ ")" :=
    write_call qualifier draft.owner draft.target
  rw [write_owner] at call
  have none : (draft.written qualifier).target.results.isEmpty = draft.target.results.isEmpty := by
    simp [PlanDraft.written, CalleeDraft.written]
  rw [PlanDraft.callScript, callLine, none]
  split
  · rw [lines_said, call]
    rfl
  · rw [lines, write_bound_call, call]
    exact List.append_nil _

theorem lines_errorScript (target : CalleeDraft) : (errorScript qualifier target).lines qualifier =
    errorLines (target.written qualifier) := by
  have name : (target.written qualifier).name = target.name := rfl
  have report : "t.Errorf(\"" = "t" ++ ".Errorf(\"" := rfl
  have fatal : "t.Fatal(\"" = "t" ++ ".Fatal(\"" := rfl
  rw [errorScript, errorLines, name, report, fatal]
  split
  · rw [lines_append, lines_blockOf, lines_append, lines_blockOf, lines_blockOf, lines_said,
      lines_said, lines_said]
    simp only [writeWords, Word.write, Snippet.write, String.append_empty, String.append_assoc]
    rfl
  · rfl

theorem lines_compareScript (target : CalleeDraft) (index : Nat) (result : FieldDraft) :
    (compareScript target index result).lines qualifier =
      compareLines (target.written qualifier) index (result.written qualifier) := by
  have name : (result.written qualifier).name = result.name := rfl
  rw [compareScript, compareLines, name]
  split
  · rfl
  · rw [lines_blockOf, lines_said]
    congr 2
    simp [writeWords, Word.write, Snippet.write, comparisonWords, CalleeDraft.written,
      ← String.toList_inj]

theorem lines_comparisonScript (target : CalleeDraft) :
    (comparisonScript qualifier target).lines qualifier =
      comparisonLines (target.written qualifier) := by
  have length : (target.written qualifier).results.length = target.results.length :=
    List.length_map _
  rw [comparisonScript, comparisonLines, length]
  generalize (if (target.written qualifier).endsInError then 1 else 0) = errors
  dsimp only
  split
  · rfl
  · rw [lines_append, lines_said, lines_forEach]
    congr 1
    have results : (target.written qualifier).results =
        target.results.map (FieldDraft.written qualifier) := rfl
    rw [results, indexed_map, List.flatMap_map]
    exact List.flatMap_congr fun entry _ => lines_compareScript qualifier target entry.1 entry.2

theorem lines_fieldScript (draft : PlanDraft) : draft.fieldScript.lines qualifier =
    line "name string // description of this test case"
      ++ (draft.written qualifier).fieldLines := by
  have constructor : draft.constructorArgs.map (FieldDraft.written qualifier) =
      (draft.written qualifier).constructorArgs := by
    obtain ⟨subject, testName, target, receiver⟩ := draft
    rcases receiver with _ | ⟨holder, _ | constructor⟩ <;> rfl
  rw [PlanDraft.fieldScript, TestPlan.fieldLines, lines_append, lines_append, lines_append,
    lines_said, write_fieldWords, lines_paramScript, lines_paramScript, lines_wantScript,
    constructor, List.append_assoc, List.append_assoc, List.append_assoc]
  rfl

theorem lines_tableScript (draft : PlanDraft) :
    draft.tableScript.lines qualifier = tableLines (draft.written qualifier) := by
  rw [tableLines_eq, PlanDraft.tableScript]
  simp only [lines, lines_fieldScript, lines_said, block, List.append_assoc]
  rfl

theorem lines_caseScript (draft : PlanDraft) :
    (draft.caseScript qualifier).lines qualifier = caseLines (draft.written qualifier) := by
  rw [PlanDraft.caseScript, caseLines, lines_append, lines_append, lines_append, lines_callScript,
    lines_errorScript, lines_comparisonScript]
  congr 3
  obtain ⟨subject, testName, target, receiver⟩ := draft
  cases receiver with
  | none => rfl
  | some receiver => exact lines_receiver qualifier subject receiver

theorem write_testParameter (front : List Word) : writeWords qualifier (front ++ testParameter) =
    writeWords qualifier front ++ "t *" ++ qualifier .testing ++ ".T) \x7b" := by
  rw [writeWords_append, String.append_assoc, String.append_assoc]
  congr 1
  simp [testParameter, writeWords, Word.write, Snippet.write, ← String.toList_inj]

/-- The script of a draft, put into lines, is the test that is written from the draft. -/
theorem lines_script (draft : PlanDraft) :
    (draft.script qualifier).lines qualifier = (draft.written qualifier).lines := by
  have function : writeWords qualifier
      (.fixed "func " :: .given (.text draft.testName) :: .fixed "(" :: testParameter) =
        "func " ++ draft.testName ++ "(t *" ++ qualifier .testing ++ ".T) \x7b" := by
    refine (write_testParameter qualifier
      [.fixed "func ", .given (.text draft.testName), .fixed "("]).trans ?_
    simp [writeWords, Word.write, Snippet.write, ← String.toList_inj]
  have case : writeWords qualifier
      ([.uses "t", .fixed ".Run(", .reads "name", .fixed ", func("] ++ testParameter) =
        "t.Run(tt.name, func(t *" ++ qualifier .testing ++ ".T) \x7b" :=
    (write_testParameter qualifier _).trans rfl
  rw [PlanDraft.script, TestPlan.lines, lines_append, lines_said, lines_blockOf, lines_append,
    lines_tableScript, lines_blockOf, lines_blockOf, lines_caseScript, function, case]
  rfl

end Lines

end Scaffold
