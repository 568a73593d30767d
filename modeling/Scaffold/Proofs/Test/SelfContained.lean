import Scaffold.Proofs.Test.Complete
import Scaffold.Proofs.Test.Script

/-! Tests that hold what they need: the fields they read, and the variables they use. -/

namespace Scaffold

open Go

/-- Whether a stretch of a line reads only fields that there are, and uses only known variables. -/
def Word.IsSound (fields : String → Prop) (known : List String) : Word → Prop
  | .reads field => fields field
  | .uses name => name ∈ known
  -- No text that every test has reads a field on the side.
  | .fixed text => ¬Occurs "tt." text
  | .comment _ | .given _ | .declares _ | .binds _ => True

/-- Whether all stretches of a line are sound. -/
def AreSound (fields : String → Prop) (known : List String) (words : List Word) : Prop :=
  ∀ word ∈ words, word.IsSound fields known

section Words

variable {fields : String → Prop} {known : List String}

@[simp] theorem areSound_nil : AreSound fields known [] :=
  nofun

@[simp] theorem areSound_cons (word : Word) (rest : List Word) :
    AreSound fields known (word :: rest) ↔ word.IsSound fields known ∧ AreSound fields known rest :=
  List.forall_mem_cons

@[simp] theorem areSound_append (first second : List Word) :
    AreSound fields known (first ++ second) ↔
      AreSound fields known first ∧ AreSound fields known second :=
  List.forall_mem_append

@[simp] theorem isSound_fixed (text : String) :
    (Word.fixed text).IsSound fields known ↔ ¬Occurs "tt." text :=
  Iff.rfl

@[simp] theorem areSound_givens (snippets : List Snippet) :
    AreSound fields known (givens snippets) := by
  intro word member
  obtain ⟨snippet, -, rfl⟩ := List.mem_map.mp member
  exact trivial

/-- A list is sound if its items are. -/
theorem areSound_listed {items : List (List Word)}
    (sound : ∀ item ∈ items, AreSound fields known item) :
    AreSound fields known (listed items) := by
  induction items with
  | nil => exact areSound_nil
  | cons item rest ih =>
    obtain ⟨first, others⟩ := List.forall_mem_cons.mp sound
    cases rest with
    | nil => simpa using first
    | cons next more =>
      rw [listed_cons_cons, areSound_append, areSound_cons]
      exact ⟨first, by simp +decide, ih others⟩

@[simp] theorem areSound_bindings (names : List String) :
    AreSound fields known (bindings names) := by
  refine areSound_listed fun item member => ?_
  obtain ⟨name, -, rfl⟩ := List.mem_map.mp member
  simp [Word.IsSound]

theorem areSound_call {owner : List Word} {callee : CalleeDraft}
    (sound : AreSound fields known owner)
    (args : ∀ arg ∈ callee.args, arg.isNamed = true → fields arg.name) :
    AreSound fields known (callee.call owner) := by
  have passed : AreSound fields known (listed (callee.args.map FieldDraft.passed)) := by
    refine areSound_listed fun item member => ?_
    obtain ⟨arg, held, rfl⟩ := List.mem_map.mp member
    rw [FieldDraft.passed, areSound_append]
    constructor
    · split
      · rename_i named
        simpa [Word.IsSound] using args arg held named
      · exact areSound_givens _
    · split <;> simp +decide
  rw [CalleeDraft.call, callWords, areSound_append, areSound_append, areSound_cons]
  exact ⟨⟨sound, by simp +decide, passed⟩, by simp +decide⟩

@[simp] theorem areSound_fieldWords (name : String) (type : List Word) :
    AreSound fields known (fieldWords name type) ↔ AreSound fields known type := by
  simp +decide [fieldWords, Word.IsSound]

end Words

namespace Script

/-- Whether a stretch stands on one of the lines. -/
def Says (script : Script) (word : Word) : Prop :=
  ∃ sentence ∈ script.sentences, word ∈ sentence

/--
Whether each name that a line binds is used on a later line where it is known.

Those lines are the ones of the script, and what stands behind it.
-/
def Spends (later : String → Prop) : Script → Prop
  | .done => True
  | .say _ binds rest => (∀ name ∈ binds, rest.Says (.uses name) ∨ later name) ∧ rest.Spends later
  | .nest _ body rest => (body.Spends fun _ => False) ∧ rest.Spends later

section Says

variable {word : Word}

@[simp] theorem not_says_done : ¬done.Says word :=
  nofun

@[simp] theorem says_say (words : List Word) (binds : List String) (rest : Script) :
    (say words binds rest).Says word ↔ word ∈ words ∨ rest.Says word := by
  simp [Says, sentences]

@[simp] theorem says_nest (opens : List String) (body rest : Script) :
    (nest opens body rest).Says word ↔ body.Says word ∨ rest.Says word := by
  simp [Says, sentences, or_and_right, exists_or]

@[simp] theorem says_append (first second : Script) :
    (first ++ second).Says word ↔ first.Says word ∨ second.Says word := by
  simp [Says, or_and_right, exists_or]

@[simp] theorem says_said (words : List Word) : (said words).Says word ↔ word ∈ words := by
  simp [said]

@[simp] theorem says_blockOf (opening : List Word) (opens : List String) (body : Script)
    (closing : String) : (blockOf opening opens body closing).Says word ↔
      word ∈ opening ∨ body.Says word ∨ word = .fixed closing := by
  simp [blockOf]

@[simp] theorem says_forEach {α : Type} (script : α → Script) (xs : List α) :
    (forEach script xs).Says word ↔ ∃ x ∈ xs, (script x).Says word := by
  induction xs with
  | nil => simp [forEach]
  | cons x rest ih => simp [forEach, ih]

end Says

section Spends

variable {later other : String → Prop}

theorem Spends.imp {script : Script} (spends : script.Spends later)
    (more : ∀ name, later name → other name) : script.Spends other := by
  induction script with
  | done => trivial
  | say words binds rest ih =>
    exact ⟨fun name member => (spends.1 name member).imp_right (more name), ih spends.2⟩
  | nest opens body rest _ ih => exact ⟨spends.1, ih spends.2⟩

/-- What the first lines bind may be used on the second ones. -/
@[simp] theorem spends_append (first second : Script) :
    (first ++ second).Spends later ↔
      (first.Spends fun name => second.Says (.uses name) ∨ later name) ∧ second.Spends later := by
  rw [append_eq]
  induction first with
  | done => simp [append, Spends]
  | say words binds rest ih =>
    rw [append, Spends, Spends, ih, and_assoc]
    simp only [← append_eq, says_append, or_assoc]
  | nest opens body rest _ ih => rw [append, Spends, Spends, ih, and_assoc]

@[simp] theorem spends_said (words : List Word) : (said words).Spends later := by
  simp [said, Spends]

@[simp] theorem spends_blockOf (opening : List Word) (opens : List String) (body : Script)
    (closing : String) : (blockOf opening opens body closing).Spends later ↔
      body.Spends fun _ => False := by
  simp [blockOf, Spends]

theorem spends_forEach {α : Type} {script : α → Script} {xs : List α}
    (each : ∀ x, (script x).Spends later) : (forEach script xs).Spends later := by
  induction xs with
  | nil => trivial
  | cons x rest ih =>
    rw [forEach, spends_append]
    exact ⟨(each x).imp fun name => .inr, ih⟩

end Spends

end Script

/--
The names in a draft agree with the types that are written for them.

The variable for the receiver is bound, and an error beside it if the constructor ends in one. A
result has the name for errors exactly if the results end in an error.
-/
structure PlanDraft.IsConsistent (qualifier : PackageRef → String) (draft : PlanDraft) : Prop where
  holder : ∀ receiver ∈ draft.receiver, receiver.holder.name ∈ draft.receiverNames
  failing : ∀ receiver ∈ draft.receiver, ∀ constructor ∈ receiver.constructor,
    (constructor.written qualifier).endsInError = true → "err" ∈ draft.receiverNames
  only : ∀ receiver ∈ draft.receiver, ∀ name ∈ draft.receiverNames,
    name = receiver.holder.name ∨ name = "err" ∧ ∃ constructor ∈ receiver.constructor,
      (constructor.written qualifier).endsInError = true
  target : (draft.target.written qualifier).endsInError = true ↔
    "gotErr" ∈ draft.target.results.map FieldDraft.name

section Sound

open Script

variable {fields : String → Prop} {known : List String} {qualifier : PackageRef → String}
  {draft : PlanDraft}

theorem areSound_paramScript (heading : String) (args : List FieldDraft) :
    (paramScript heading args).Throughout (AreSound fields) known := by
  rw [paramScript]
  split
  · exact throughout_done
  · rw [throughout_append, throughout_forEach fun _ => rfl]
    simp [Word.IsSound]

theorem areSound_wantScript (results : List FieldDraft) :
    (wantScript results).Throughout (AreSound fields) known := by
  rw [wantScript, throughout_forEach fun _ => rfl]
  intro entry _
  rw [throughout_said, expectedWords]
  split <;> simp +decide

/-- A table reads nothing and uses nothing. -/
theorem areSound_tableScript (draft : PlanDraft) :
    draft.tableScript.Throughout (AreSound fields) known := by
  simp +decide [PlanDraft.tableScript, PlanDraft.fieldScript, areSound_paramScript,
    areSound_wantScript, Word.IsSound]

theorem areSound_receiverScript (consistent : draft.IsConsistent qualifier)
    (parameter : "t" ∈ known)
    (args : ∀ arg ∈ draft.constructorArgs, arg.isNamed = true → fields arg.name) :
    (draft.receiverScript qualifier).Throughout (AreSound fields) known := by
  have failing := consistent.failing
  obtain ⟨subject, testName, target, receiver⟩ := draft
  rcases receiver with _ | ⟨holder, _ | constructor⟩
  · exact throughout_done
  · simp +decide [PlanDraft.receiverScript, ReceiverDraft.script, Word.IsSound]
  · dsimp only [PlanDraft.receiverScript, ReceiverDraft.script]
    rw [throughout_say, areSound_append, areSound_cons]
    refine ⟨⟨areSound_bindings _, by simp +decide, areSound_call (by simp [Word.IsSound]) args⟩, ?_⟩
    split
    · rename_i ends
      have bound : "err" ∈ constructor.results.map FieldDraft.name :=
        failing ⟨holder, some constructor⟩ rfl constructor rfl ends
      simp +decide [Word.IsSound, parameter, -List.mem_map, bound]
    · exact throughout_done

theorem areSound_callScript (holder : ∀ receiver ∈ draft.receiver, receiver.holder.name ∈ known)
    (args : ∀ arg ∈ draft.target.args, arg.isNamed = true → fields arg.name) :
    draft.callScript.Throughout (AreSound fields) known := by
  have owner : AreSound fields known draft.owner := by
    rw [PlanDraft.owner]
    split
    · rename_i receiver held
      simp +decide [Word.IsSound, holder receiver held]
    · simp [Word.IsSound]
  rw [PlanDraft.callScript]
  split
  · exact (throughout_said _).mpr (areSound_call owner args)
  · rw [throughout_say, areSound_append, areSound_cons]
    exact ⟨⟨areSound_bindings _, by simp +decide, areSound_call owner args⟩, throughout_done⟩

theorem areSound_errorScript {target : CalleeDraft} (parameter : "t" ∈ known)
    (failing : (target.written qualifier).endsInError = true →
      fields "wantErr" ∧ "gotErr" ∈ known) :
    (errorScript qualifier target).Throughout (AreSound fields) known := by
  rw [errorScript]
  split
  · rename_i ends
    simp +decide [Word.IsSound, parameter, failing ends]
  · exact throughout_done

theorem areSound_comparisonScript {target : CalleeDraft} (parameter : "t" ∈ known)
    (compared : ∀ index result, target.results[index]? = some result → result.name ≠ "gotErr" →
      fields (wantName index) ∧ result.name ∈ known) :
    (comparisonScript qualifier target).Throughout (AreSound fields) known := by
  rcases comparisonScript_cases qualifier target with same | same <;> rw [same]
  · exact throughout_done
  · rw [throughout_append, throughout_forEach fun entry => bound_compareScript _ _ _]
    refine ⟨by simp [Word.IsSound], fun entry member => ?_⟩
    rw [compareScript]
    split
    · exact throughout_done
    · rename_i ordinary
      obtain ⟨field, bound⟩ :=
        compared entry.1 entry.2 (mem_indexed.mp member) (by simpa using ordinary)
      simp +decide [comparisonWords, Word.IsSound, parameter, field, bound]

/-- Each named parameter has a field. -/
theorem declares_paramScript {heading : String} {args : List FieldDraft} {arg : FieldDraft}
    (member : arg ∈ args) (named : arg.isNamed = true) :
    (paramScript heading args).Says (.declares arg.name) := by
  have kept : arg ∈ args.filter FieldDraft.isNamed := List.mem_filter.mpr ⟨member, named⟩
  rw [paramScript]
  split
  · rename_i none
    rw [none] at kept
    cases kept
  · rw [says_append, says_forEach]
    exact .inr ⟨arg, kept, by simp [fieldWords]⟩

/-- Each result has a field for what is expected of it. -/
theorem declares_wantScript {results : List FieldDraft} {index : Nat} {result : FieldDraft}
    (held : results[index]? = some result) : (wantScript results).Says
      (.declares (if result.name = "gotErr" then "wantErr" else wantName index)) := by
  rw [wantScript, says_forEach]
  refine ⟨(index, result), mem_indexed.mpr held, ?_⟩
  rw [says_said, expectedWords]
  split
  · rename_i error
    simp_all [fieldWords]
  · rename_i ordinary
    simp_all [fieldWords]

/-- Whether a table declares a field. -/
def PlanDraft.Declares (draft : PlanDraft) (field : String) : Prop :=
  draft.tableScript.Says (.declares field)

/-- What the lines inside of the table's type declare is declared by the table. -/
theorem declares_of_fieldScript {field : String}
    (declared : draft.fieldScript.Says (.declares field)) : draft.Declares field := by
  simp [PlanDraft.Declares, PlanDraft.tableScript, declared]

/-- The body of a test case reads declared fields, and uses variables that are known. -/
theorem areSound_caseScript (consistent : draft.IsConsistent qualifier) (parameter : "t" ∈ known) :
    (draft.caseScript qualifier).Throughout (AreSound draft.Declares) known := by
  have results : ∀ index result, draft.target.results[index]? = some result →
      draft.Declares (if result.name = "gotErr" then "wantErr" else wantName index) :=
    fun index result held => declares_of_fieldScript (by
      rw [PlanDraft.fieldScript, says_append]
      exact .inr (declares_wantScript held))
  rw [PlanDraft.caseScript, throughout_append, throughout_append, throughout_append,
    bound_append, bound_append, bound_receiverScript, bound_callScript, bound_errorScript,
    List.append_nil]
  refine ⟨⟨⟨?_, ?_⟩, ?_⟩, ?_⟩
  · refine areSound_receiverScript consistent parameter fun arg member named => ?_
    refine declares_of_fieldScript ?_
    rw [PlanDraft.fieldScript, says_append, says_append, says_append]
    exact .inl (.inl (.inr (declares_paramScript member named)))
  · refine areSound_callScript (fun receiver held => ?_) fun arg member named => ?_
    · exact List.mem_append_right _ (consistent.holder receiver held)
    · refine declares_of_fieldScript ?_
      rw [PlanDraft.fieldScript, says_append, says_append]
      exact .inl (.inr (declares_paramScript member named))
  · refine areSound_errorScript (List.mem_append_left _ parameter) fun ends => ?_
    obtain ⟨result, member, error⟩ := List.mem_map.mp (consistent.target.mp ends)
    obtain ⟨index, held⟩ := List.mem_iff_getElem?.mp member
    have declared := results index result held
    rw [if_pos error] at declared
    exact ⟨declared, by simp [consistent.target.mp ends, -List.mem_map]⟩
  · refine areSound_comparisonScript (List.mem_append_left _ parameter) ?_
    intro index result held ordinary
    have declared := results index result held
    rw [if_neg ordinary] at declared
    have bound := List.mem_map_of_mem (f := FieldDraft.name) (List.mem_of_getElem? held)
    exact ⟨declared, by simp [bound, -List.mem_map]⟩

/-- A test reads declared fields, and uses variables that are known. -/
theorem areSound_script (consistent : draft.IsConsistent qualifier) :
    (draft.script qualifier).Throughout (AreSound draft.Declares) [] := by
  have parameter : ∀ known, AreSound draft.Declares known testParameter := by
    simp +decide [testParameter, Word.IsSound]
  have name : draft.Declares "name" := declares_of_fieldScript (by
    simp [PlanDraft.fieldScript, fieldWords])
  have table : draft.tableScript.bound = ["tests"] := rfl
  rw [PlanDraft.script, throughout_append, throughout_blockOf, throughout_append,
    throughout_blockOf, throughout_blockOf, table]
  have case : (draft.caseScript qualifier).Throughout (AreSound draft.Declares)
      ["t", "tests", "tt", "t"] := areSound_caseScript consistent (by simp)
  simp +decide [areSound_tableScript, parameter, case, name, Word.IsSound]

end Sound

section Spent

open Script

variable {later : String → Prop} {qualifier : PackageRef → String} {draft : PlanDraft}

theorem spends_receiverScript (consistent : draft.IsConsistent qualifier)
    (holder : ∀ receiver ∈ draft.receiver, later receiver.holder.name) :
    (draft.receiverScript qualifier).Spends later := by
  have only := consistent.only
  obtain ⟨subject, testName, target, receiver⟩ := draft
  rcases receiver with _ | ⟨held, _ | constructor⟩
  · trivial
  · simpa [PlanDraft.receiverScript, ReceiverDraft.script, Spends] using holder
  · refine ⟨fun name member => ?_, ?_⟩
    · -- A name is the variable's, or that of an error which is looked at next.
      rcases only _ rfl name member with rfl | ⟨rfl, failing, same, ends⟩
      · exact .inr (holder _ rfl)
      · obtain rfl : constructor = failing := Option.some.inj same
        rw [if_pos ends]
        exact .inl (by simp)
    · split <;> simp [Spends]

/-- The variable for the receiver is used where the method is called. -/
theorem uses_holder {receiver : ReceiverDraft} (held : draft.receiver = some receiver) :
    draft.callScript.Says (.uses receiver.holder.name) := by
  have owner : .uses receiver.holder.name ∈ draft.target.call draft.owner := by
    simp [CalleeDraft.call, callWords, PlanDraft.owner, held]
  rw [PlanDraft.callScript]
  split
  · exact (says_said _).mpr owner
  · exact (says_say _ _ _).mpr (.inl (by simp [owner]))

/-- A last error is used where it is checked. -/
theorem uses_gotErr {target : CalleeDraft}
    (ends : (target.written qualifier).endsInError = true) :
    (errorScript qualifier target).Says (.uses "gotErr") := by
  rw [errorScript, if_pos ends]
  simp

/-- Each result but a last error is compared with what is expected of it. -/
theorem compares {target : CalleeDraft}
    (agrees : (target.written qualifier).endsInError = true ↔
      "gotErr" ∈ target.results.map FieldDraft.name)
    {index : Nat} {result : FieldDraft} (held : target.results[index]? = some result)
    (ordinary : result.name ≠ "gotErr") :
    comparisonWords target.name index result.name ∈
      (comparisonScript qualifier target).sentences := by
  have some : target.results.length -
      (if (target.written qualifier).endsInError = true then 1 else 0) ≠ 0 := by
    have within := (List.getElem?_eq_some_iff.mp held).1
    split
    · -- The error is another result.
      rename_i ends
      obtain ⟨other, member, error⟩ := List.mem_map.mp (agrees.mp ends)
      obtain ⟨place, there⟩ := List.mem_iff_getElem?.mp member
      have apart : index ≠ place := by
        rintro rfl
        rw [held] at there
        exact ordinary (Option.some.inj there ▸ error)
      have behind := (List.getElem?_eq_some_iff.mp there).1
      omega
    · omega
  rw [comparisonScript, if_neg some, sentences_append, sentences_forEach]
  refine List.mem_append_right _ (List.mem_flatMap.mpr ⟨(index, result), mem_indexed.mpr held, ?_⟩)
  dsimp only
  rw [compareScript, if_neg (by simpa using ordinary)]
  simp [blockOf, sentences, said]

/-- Each name that is bound in the body of a test case is used behind the line that binds it. -/
theorem spends_caseScript (consistent : draft.IsConsistent qualifier) :
    (draft.caseScript qualifier).Spends later := by
  rw [PlanDraft.caseScript, spends_append, spends_append, spends_append]
  refine ⟨⟨⟨?_, ?_⟩, ?_⟩, ?_⟩
  · exact spends_receiverScript consistent fun receiver held => .inl (uses_holder held)
  · -- A result is used where the error is checked, or where it is compared.
    have used : ∀ name ∈ draft.target.results.map FieldDraft.name,
        (errorScript qualifier draft.target).Says (.uses name) ∨
          (comparisonScript qualifier draft.target).Says (.uses name) := by
      intro name member
      by_cases error : name = "gotErr"
      · subst error
        exact .inl (uses_gotErr (consistent.target.mpr member))
      · obtain ⟨result, listed, rfl⟩ := List.mem_map.mp member
        obtain ⟨index, held⟩ := List.mem_iff_getElem?.mp listed
        exact .inr ⟨_, compares consistent.target held error, by simp [comparisonWords]⟩
    rw [PlanDraft.callScript]
    split
    · exact spends_said _
    · exact ⟨fun name member => .inr ((used name member).imp_right .inl), trivial⟩
  · rw [errorScript]
    split
    · simp
    · trivial
  · rcases comparisonScript_cases qualifier draft.target with same | same <;> rw [same]
    · trivial
    · rw [spends_append]
      refine ⟨spends_said _, spends_forEach fun entry => ?_⟩
      dsimp only
      rw [compareScript]
      split
      · trivial
      · simp

/-- Each name that a line of a test binds is used behind it. -/
theorem spends_script (consistent : draft.IsConsistent qualifier) :
    (draft.script qualifier).Spends fun _ => False := by
  -- Fields are no variables.
  have params : ∀ heading args later, (paramScript heading args).Spends later := by
    intro heading args later
    rw [paramScript]
    split
    · trivial
    · exact (spends_append _ _).mpr ⟨spends_said _, spends_forEach fun _ => spends_said _⟩
  have wants : ∀ results later, (wantScript results).Spends later :=
    fun results later => spends_forEach fun _ => spends_said _
  have fields : draft.fieldScript.Spends fun _ => False := by
    simp [PlanDraft.fieldScript, params, wants]
  rw [PlanDraft.script, spends_append, spends_blockOf, spends_append, spends_blockOf,
    spends_blockOf]
  refine ⟨spends_said _, ?_, spends_caseScript consistent⟩
  -- The table is used by the loop over its rows.
  simp [PlanDraft.tableScript, Spends, fields]

end Spent

/-- A field as the draft that says exactly this. -/
def Field.draft (field : Field) : FieldDraft :=
  ⟨field.name, [.text field.type], [.text field.value], field.variadic⟩

/-- A callee as the draft that says exactly this. -/
def Callee.draft (callee : Callee) : CalleeDraft :=
  ⟨callee.name, callee.args.map Field.draft, callee.results.map Field.draft⟩

/-- A receiver as the draft that says exactly this. -/
def Receiver.draft (receiver : Receiver) : ReceiverDraft :=
  ⟨receiver.holder.draft, receiver.constructor.map Callee.draft⟩

/-- A plan as the draft that says exactly this, under its own two qualifiers. -/
def TestPlan.draft (plan : TestPlan) : PlanDraft :=
  ⟨⟨"", ""⟩, plan.testName, plan.target.draft, plan.receiver.map Receiver.draft⟩

/-- The qualifiers of a plan: that of the package for tests, and that of the tested package. -/
def TestPlan.qualifier (plan : TestPlan) (package : PackageRef) : String :=
  if package = .testing then plan.testing else plan.package

/-- The test of a plan as a script. -/
def TestPlan.script (plan : TestPlan) : Script :=
  plan.draft.script plan.qualifier

section Drafts

variable (qualifier : PackageRef → String)

theorem names_draft (fields : List Field) :
    (fields.map Field.draft).map FieldDraft.name = fields.map Field.name := by
  rw [List.map_map]
  rfl

theorem Field.written_draft (field : Field) : field.draft.written qualifier = field := by
  obtain ⟨name, type, value, variadic⟩ := field
  simp [Field.draft, FieldDraft.written, writeSnippets, Snippet.write]

theorem Callee.written_draft (callee : Callee) : callee.draft.written qualifier = callee := by
  have fields : ∀ fields : List Field,
      (fields.map Field.draft).map (FieldDraft.written qualifier) = fields := by
    intro fields
    rw [List.map_map]
    exact (List.map_congr_left fun field _ => field.written_draft qualifier).trans (List.map_id _)
  obtain ⟨name, args, results⟩ := callee
  rw [Callee.draft, CalleeDraft.written, fields, fields]

theorem Receiver.written_draft (receiver : Receiver) :
    receiver.draft.written qualifier = receiver := by
  obtain ⟨holder, constructor⟩ := receiver
  rw [Receiver.draft, ReceiverDraft.written, Field.written_draft]
  cases constructor with
  | none => rfl
  | some callee => exact congrArg (Receiver.mk holder <| some ·) (callee.written_draft qualifier)

/-- The draft of a plan is written as the plan. -/
theorem TestPlan.written_draft (plan : TestPlan) : plan.draft.written plan.qualifier = plan := by
  obtain ⟨testing, package, testName, target, receiver⟩ := plan
  rw [TestPlan.draft, PlanDraft.written, Callee.written_draft]
  cases receiver with
  | none => rfl
  | some receiver =>
    exact congrArg (TestPlan.mk testing package testName target <| some ·)
      (receiver.written_draft _)

end Drafts

/-- The results of a callee have the names that a test gives them by their places and types. -/
def Callee.NamesResults (target : Callee) : Prop :=
  target.results.map Field.name = target.results.mapIdx fun index result =>
    gotName index target.results.length (result.type == "error")

instance (target : Callee) : Decidable target.NamesResults :=
  inferInstanceAs (Decidable (_ = _))

/-- A constructor gives the variable for a receiver, and perhaps an error beside it. -/
def Receiver.IsMadeBy (receiver : Receiver) (constructor : Callee) : Prop :=
  ∃ first, first.name = receiver.holder.name ∧ first.type ≠ "error" ∧
    (constructor.results = [first] ∨ ∃ failure, failure.name = "err" ∧ failure.type = "error" ∧
      constructor.results = [first, failure])

section Names

variable {target : Callee}

/-- The name for errors is that of a last error. -/
theorem name_eq_gotErr_iff (named : target.NamesResults) {index : Nat} {result : Field}
    (held : target.results[index]? = some result) : result.name = "gotErr" ↔
      index + 1 = target.results.length ∧ result.type = "error" := by
  have name : (target.results.map Field.name)[index]? = some (gotName index target.results.length
      (result.type == "error")) := by
    rw [named, List.getElem?_mapIdx, held]
    rfl
  rw [List.getElem?_map, held] at name
  rw [Option.some.inj name, gotName_eq_gotErr_iff, beq_iff_eq]

/-- The results end in an error exactly if one of them has the name for errors. -/
theorem endsInError_iff (named : target.NamesResults) :
    target.endsInError = true ↔ "gotErr" ∈ target.results.map Field.name := by
  constructor
  · intro ends
    rw [Callee.endsInError] at ends
    cases last : target.results.getLast? with
    | none =>
      rw [last] at ends
      cases ends
    | some result =>
      rw [last] at ends
      rw [List.getLast?_eq_getElem?] at last
      have within := (List.getElem?_eq_some_iff.mp last).1
      refine List.mem_map.mpr ⟨result, List.mem_of_getElem? last, ?_⟩
      exact (name_eq_gotErr_iff named last).mpr ⟨by omega, beq_iff_eq.mp ends⟩
  · intro member
    obtain ⟨result, listed, error⟩ := List.mem_map.mp member
    obtain ⟨index, held⟩ := List.mem_iff_getElem?.mp listed
    obtain ⟨last, type⟩ := (name_eq_gotErr_iff named held).mp error
    rw [Callee.endsInError, List.getLast?_eq_getElem?, ← last, Nat.add_sub_cancel, held]
    simp [type]

/-- What makes a receiver binds its variable, and an error beside it if it ends in one. -/
theorem names_of_isMadeBy {receiver : Receiver} {constructor : Callee}
    (made : receiver.IsMadeBy constructor) : constructor.results.map Field.name =
      receiver.holder.name :: if constructor.endsInError then ["err"] else [] := by
  obtain ⟨first, name, ordinary, one | ⟨failure, error, type, two⟩⟩ := made
  · simp [Callee.endsInError, one, name, ordinary]
  · simp [Callee.endsInError, two, name, error, type]

/-- A plan names an error among the results exactly if they end in one. -/
theorem isConsistent_target {plan : TestPlan} (named : plan.target.NamesResults) :
    (plan.draft.target.written plan.qualifier).endsInError = true ↔
      "gotErr" ∈ plan.draft.target.results.map FieldDraft.name := by
  rw [TestPlan.draft, Callee.written_draft, endsInError_iff named, Callee.draft, names_draft]

/-- The draft of a plan is consistent if the plan names what it binds by the types of it. -/
theorem isConsistent_draft {plan : TestPlan} (named : plan.target.NamesResults)
    (made : ∀ receiver ∈ plan.receiver, ∀ constructor ∈ receiver.constructor,
      receiver.IsMadeBy constructor) : plan.draft.IsConsistent plan.qualifier := by
  have results := isConsistent_target named
  obtain ⟨testing, package, testName, target, receiver⟩ := plan
  rcases receiver with _ | ⟨holder, _ | constructor⟩
  · exact ⟨nofun, nofun, nofun, results⟩
  · refine ⟨?_, ?_, ?_, results⟩
    · rintro receiver ⟨⟩
      exact List.mem_singleton_self _
    · rintro receiver ⟨⟩ constructor ⟨⟩
    · rintro receiver ⟨⟩ name only
      exact .inl (List.mem_singleton.mp only)
  · -- What is bound are the variable, and an error if the constructor ends in one.
    have bound : (constructor.results.map Field.draft).map FieldDraft.name =
        holder.name :: if constructor.endsInError then ["err"] else [] :=
      (names_draft _).trans (names_of_isMadeBy (made _ rfl constructor rfl))
    refine ⟨?_, ?_, ?_, results⟩
    · rintro receiver ⟨⟩
      change holder.name ∈ (constructor.results.map Field.draft).map FieldDraft.name
      rw [bound]
      exact List.mem_cons_self
    · rintro receiver ⟨⟩ failing ⟨⟩ ends
      rw [Callee.written_draft] at ends
      change "err" ∈ (constructor.results.map Field.draft).map FieldDraft.name
      rw [bound, if_pos ends]
      simp
    · rintro receiver ⟨⟩ name member
      change name ∈ (constructor.results.map Field.draft).map FieldDraft.name at member
      rw [bound] at member
      rcases List.mem_cons.mp member with rfl | error
      · exact .inl rfl
      · split at error
        · rename_i ends
          refine .inr ⟨List.mem_singleton.mp error, constructor.draft, rfl, ?_⟩
          rw [Callee.written_draft]
          exact ends
        · cases error

end Names

/-- A parameter is passed as one expression: its field or its value, spread if it is variadic. -/
def Field.IsPassedAs (field : Field) (words : List Word) : Prop :=
  ∃ expression, words = expression :: (if field.variadic then [.fixed "..."] else []) ∧
    (field.name ≠ "" ∧ expression = .reads field.name ∨
      field.name = "" ∧ field.value ≠ "" ∧ expression = .given (.text field.value))

/-- A function is called on one of the lines, and each parameter is passed in its place. -/
def Script.Calls (script : Script) (owner : List Word) (args : List Field) : Prop :=
  ∃ front passed, List.Forall₂ Field.IsPassedAs args passed ∧
    front ++ callWords owner passed ∈ script.sentences

/--
The test of a plan holds what it needs.

Its lines read declared fields only, and use variables where they are known. Each variable is used
behind the line that binds it. Each result but a last error is compared with the field for it, which
has the type of the result. Functions are called with one expression for each parameter.
-/
structure TestPlan.IsSelfContained (plan : TestPlan) : Prop where
  sound : plan.script.Throughout (AreSound plan.draft.Declares) []
  spends : plan.script.Spends fun _ => False
  bound : (plan.draft.caseScript plan.qualifier).bound = plan.boundNames
  compared : ∀ index result, plan.target.results[index]? = some result →
    ¬(index + 1 = plan.target.results.length ∧ result.type = "error") →
    fieldWords (wantName index) [.given (.text result.type)] ∈ plan.draft.tableScript.sentences ∧
    comparisonWords plan.target.name index result.name ∈
      (plan.draft.caseScript plan.qualifier).sentences
  called : (plan.draft.caseScript plan.qualifier).Calls plan.draft.owner plan.target.args
  made : ∀ receiver ∈ plan.receiver, ∀ constructor ∈ receiver.constructor,
    (plan.draft.caseScript plan.qualifier).Calls
      [.given (.name plan.draft.subject constructor.name)] constructor.args

section Plan

variable {plan : TestPlan}

/-- Complete parameters are passed as one expression each. -/
theorem isPassedAs_of_isComplete {args : List Field} (complete : ∀ arg ∈ args, arg.IsComplete) :
    List.Forall₂ Field.IsPassedAs args ((args.map Field.draft).map FieldDraft.passed) := by
  rw [List.map_map, List.forall₂_map_right_iff, List.forall₂_same]
  intro arg member
  obtain ⟨-, either⟩ := complete arg member
  by_cases unnamed : arg.name = ""
  · have valued : ¬arg.draft.isNamed = true := by
      simp [FieldDraft.isNamed, Field.draft, unnamed]
    refine ⟨.given (.text arg.value), ?_, .inr ⟨unnamed, either.mp unnamed, rfl⟩⟩
    rw [Function.comp_apply, FieldDraft.passed, if_neg valued]
    rfl
  · have named : arg.draft.isNamed = true := by
      simp [FieldDraft.isNamed, Field.draft, unnamed]
    refine ⟨.reads arg.name, ?_, .inl ⟨unnamed, rfl⟩⟩
    rw [Function.comp_apply, FieldDraft.passed, if_pos named]
    rfl

/-- The tested function is called with its parameters. -/
theorem calls_target (complete : plan.IsComplete) :
    (plan.draft.caseScript plan.qualifier).Calls plan.draft.owner plan.target.args := by
  have call : ∃ front, front ++ plan.draft.target.call plan.draft.owner ∈
      plan.draft.callScript.sentences := by
    rw [PlanDraft.callScript]
    split
    · exact ⟨[], List.mem_singleton_self _⟩
    · exact ⟨bindings (plan.draft.target.results.map FieldDraft.name) ++ [.fixed " := "], by
        simp [Script.sentences]⟩
  obtain ⟨front, called⟩ := call
  refine ⟨front, _, isPassedAs_of_isComplete complete.args, ?_⟩
  simp only [PlanDraft.caseScript, Script.sentences_append, List.mem_append]
  exact .inl (.inl (.inr called))

/-- A constructor is called with its parameters. -/
theorem calls_constructor (complete : plan.IsComplete) {receiver : Receiver}
    (held : plan.receiver = some receiver) {constructor : Callee}
    (makes : receiver.constructor = some constructor) :
    (plan.draft.caseScript plan.qualifier).Calls
      [.given (.name plan.draft.subject constructor.name)] constructor.args := by
  have args := (complete.receiver receiver held).args constructor makes
  refine ⟨bindings ((constructor.results.map Field.draft).map FieldDraft.name) ++ [.fixed " := "],
    _, isPassedAs_of_isComplete args, ?_⟩
  obtain ⟨testing, package, testName, target, _⟩ := plan
  cases held
  obtain ⟨holder, _⟩ := receiver
  cases makes
  simp [PlanDraft.caseScript, PlanDraft.receiverScript, TestPlan.draft, Receiver.draft,
    ReceiverDraft.script, Script.sentences, CalleeDraft.call, Callee.draft]

/-- Each result but a last error has a field of its type, and is compared with it. -/
theorem compared_of_named (named : plan.target.NamesResults) {index : Nat} {result : Field}
    (held : plan.target.results[index]? = some result)
    (ordinary : ¬(index + 1 = plan.target.results.length ∧ result.type = "error")) :
    fieldWords (wantName index) [.given (.text result.type)] ∈ plan.draft.tableScript.sentences ∧
    comparisonWords plan.target.name index result.name ∈
      (plan.draft.caseScript plan.qualifier).sentences := by
  have apart : result.name ≠ "gotErr" := fun error =>
    ordinary ((name_eq_gotErr_iff named held).mp error)
  have drafted : plan.draft.target.results[index]? = some result.draft := by
    rw [TestPlan.draft, Callee.draft, List.getElem?_map, held]
    rfl
  constructor
  · have wanted : expectedWords index result.draft ∈
        (wantScript plan.draft.target.results).sentences := by
      rw [wantScript, Script.sentences_forEach]
      exact List.mem_flatMap.mpr ⟨(index, result.draft), mem_indexed.mpr drafted,
        List.mem_singleton_self _⟩
    rw [expectedWords, if_neg (by simpa [Field.draft] using apart)] at wanted
    simp only [PlanDraft.tableScript, PlanDraft.fieldScript, Script.sentences,
      Script.sentences_append, List.mem_cons, List.mem_append]
    exact .inr (.inl (.inr wanted))
  · have compared := compares (isConsistent_target named) drafted apart
    simp only [PlanDraft.caseScript, Script.sentences_append, List.mem_append]
    exact .inr compared

end Plan

/--
The test of a plan that passes the check holds what it needs.

The results of the tested function have the names for them, and a constructor gives the variable
for the receiver, perhaps with an error. Names, types and values stand as the plan gives them.
-/
theorem isSelfContained_of_check {plan : TestPlan} (checked : plan.check = .ok ())
    (named : plan.target.NamesResults)
    (made : ∀ receiver ∈ plan.receiver, ∀ constructor ∈ receiver.constructor,
      receiver.IsMadeBy constructor) :
    plan.render = .ok (renderLines (plan.script.lines plan.qualifier)) ∧ plan.IsSelfContained := by
  have consistent := isConsistent_draft named made
  have complete := TestPlan.check_eq_ok_iff.mp checked
  constructor
  · rw [TestPlan.script, lines_script, plan.written_draft, TestPlan.render, checked]
    rfl
  · exact {
      sound := areSound_script consistent
      spends := spends_script consistent
      bound := (bound_caseScript _ _).trans (congrArg TestPlan.boundNames plan.written_draft)
      compared := fun index result => compared_of_named named
      called := calls_target complete
      made := fun receiver held constructor makes => calls_constructor complete held makes }

/-- The plan of a test of a method, with a constructor, a fixed value and a variadic parameter. -/
def methodPlan : TestPlan where
  testing := "testing"
  package := "p"
  testName := "TestS_M"
  target := ⟨"M", [.valued "context.Context" "context.Background()", ⟨"xs", "[]int", "", true⟩],
    [.named "got" "int", .named "gotErr" "error"]⟩
  receiver := some ⟨.named "s" "*p.S",
    some ⟨"NewS", [.named "size" "int"], [.named "s" "*p.S", .named "err" "error"]⟩⟩

theorem isSelfContained_methodPlan :
    methodPlan.render = .ok (renderLines (methodPlan.script.lines methodPlan.qualifier)) ∧
      methodPlan.IsSelfContained := by
  refine isSelfContained_of_check (by decide) (by decide) ?_
  rintro receiver ⟨⟩ constructor ⟨⟩
  exact ⟨.named "s" "*p.S", rfl, by decide, .inr ⟨.named "err" "error", rfl, rfl, rfl⟩⟩

end Scaffold
