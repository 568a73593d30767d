import Scaffold.Proofs.Test.Qualifier
import Scaffold.Test.Planning

/-! Plans whose qualifiers are left open, and what planning a test asks for and writes. -/

namespace Scaffold

open Go

/-- A stretch of a test: fixed text, a name that may stand bare, or one behind a qualifier. -/
inductive Snippet
  | text (fixed : String)
  | name (package : PackageRef) (name : String)
  | member (package : PackageRef) (name : String)
  deriving DecidableEq, Repr

namespace Snippet

/-- A piece of a type as a stretch of a test. -/
def ofPiece : Piece → Snippet
  | .text fixed => .text fixed
  | .name package declared => .name package declared

/-- The package whose qualifier is written. -/
def package? : Snippet → Option PackageRef
  | .text _ => none
  | .name package _ | .member package _ => some package

/-- The text of a stretch under some qualifiers. -/
def write (qualifier : PackageRef → String) : Snippet → String
  | .text fixed => fixed
  | .name package declared => qualifiedName (qualifier package) declared
  | .member package declared => qualifier package ++ "." ++ declared

end Snippet

/-- The packages whose qualifiers are written. -/
def packagesIn (snippets : List Snippet) : List PackageRef :=
  snippets.filterMap Snippet.package?

/-- The text of some stretches under some qualifiers. -/
def writeSnippets (qualifier : PackageRef → String) : List Snippet → String
  | [] => ""
  | snippet :: rest => snippet.write qualifier ++ writeSnippets qualifier rest

/-- A field with its qualifiers left open. -/
structure FieldDraft where
  name : String
  type : List Snippet
  value : List Snippet
  variadic : Bool

/-- The packages whose qualifiers a field asks for. -/
def FieldDraft.asked (draft : FieldDraft) : List PackageRef :=
  packagesIn draft.type ++ packagesIn draft.value

/-- The field under some qualifiers. -/
def FieldDraft.written (qualifier : PackageRef → String) (draft : FieldDraft) : Field :=
  ⟨draft.name, writeSnippets qualifier draft.type, writeSnippets qualifier draft.value,
    draft.variadic⟩

/-- A callee with its qualifiers left open. -/
structure CalleeDraft where
  name : String
  args : List FieldDraft
  results : List FieldDraft

/-- The packages whose qualifiers a callee asks for. -/
def CalleeDraft.asked (draft : CalleeDraft) : List PackageRef :=
  draft.args.flatMap FieldDraft.asked ++ draft.results.flatMap FieldDraft.asked

/-- The callee under some qualifiers. -/
def CalleeDraft.written (qualifier : PackageRef → String) (draft : CalleeDraft) : Callee :=
  ⟨draft.name, draft.args.map (FieldDraft.written qualifier),
    draft.results.map (FieldDraft.written qualifier)⟩

/-- A receiver with its qualifiers left open. -/
structure ReceiverDraft where
  holder : FieldDraft
  constructor : Option CalleeDraft

/-- The packages whose qualifiers a receiver asks for. -/
def ReceiverDraft.asked (draft : ReceiverDraft) : List PackageRef :=
  draft.holder.asked ++ (draft.constructor.map CalleeDraft.asked).getD []

/-- The receiver under some qualifiers. -/
def ReceiverDraft.written (qualifier : PackageRef → String) (draft : ReceiverDraft) : Receiver :=
  ⟨draft.holder.written qualifier, draft.constructor.map (CalleeDraft.written qualifier)⟩

/-- A plan with its qualifiers left open. -/
structure PlanDraft where
  subject : PackageRef
  testName : String
  target : CalleeDraft
  receiver : Option ReceiverDraft

/-- The packages whose qualifiers a plan asks for. -/
def PlanDraft.asked (draft : PlanDraft) : List PackageRef :=
  .testing :: draft.subject :: draft.target.asked
    ++ (draft.receiver.map ReceiverDraft.asked).getD []

/-- The plan under some qualifiers. -/
def PlanDraft.written (qualifier : PackageRef → String) (draft : PlanDraft) : TestPlan :=
  ⟨qualifier .testing, qualifier draft.subject, draft.testName, draft.target.written qualifier,
    draft.receiver.map (ReceiverDraft.written qualifier)⟩

/-- The stretches of a type. -/
def typeSnippets (type : ResolvedType) : List Snippet :=
  type.pieces.map Snippet.ofPiece

/-- The stretches of a zero value. -/
def zeroSnippets (type : ResolvedType) : List Snippet :=
  type.zeroPieces.map Snippet.ofPiece

/-- The call that gives a context. -/
def backgroundSnippets : List Snippet :=
  [.member .context "Background", .text "()"]

/-- A parameter with its qualifiers left open. -/
def paramDraft (isFirst : Bool) (param : Var) : FieldDraft :=
  if isFirst && param.type.isContext then ⟨"", typeSnippets param.type, backgroundSnippets, false⟩
  else if param.name.isEmpty || param.name == "_" then
    ⟨"", typeSnippets param.type, zeroSnippets param.type, false⟩
  else ⟨param.name, typeSnippets param.type, [], false⟩

/-- Parameters from some index on. -/
def paramDraftsFrom (variadic : Bool) (index : Nat) : List Var → List FieldDraft
  | [] => []
  | param :: rest =>
    { paramDraft (index == 0) param with variadic := variadic && rest.isEmpty }
      :: paramDraftsFrom variadic (index + 1) rest

/-- The parameters of a function. -/
def paramDrafts (signature : Signature) : List FieldDraft :=
  paramDraftsFrom signature.variadic 0 signature.params

/-- Results from some index on, under the names they are given. -/
def resultDraftsFrom (name : Nat → Bool → String) (index : Nat) : List Var → List FieldDraft
  | [] => []
  | result :: rest =>
    ⟨name index result.type.isError, typeSnippets result.type, [], false⟩
      :: resultDraftsFrom name (index + 1) rest

/-- The tested function with its qualifiers left open. -/
def targetDraft (function : Function) : CalleeDraft :=
  ⟨function.name, paramDrafts function.signature,
    resultDraftsFrom (fun index isError => gotName index function.signature.results.length isError)
      0 function.signature.results⟩

/-- A constructor with its qualifiers left open. -/
def constructorDraft (function : Function) (holder : String) : CalleeDraft :=
  ⟨function.name, paramDrafts function.signature,
    resultDraftsFrom (Viewpoint.madeName holder function.signature.results.length) 0
      function.signature.results⟩

/-- A receiver with its qualifiers left open. -/
def receiverDraft (choice : ReceiverChoice) : ReceiverDraft :=
  ⟨⟨choice.holder, typeSnippets choice.base, [], false⟩,
    choice.constructor.map fun function => constructorDraft function choice.holder⟩

/-- The plan of a test with its qualifiers left open. -/
def planDraft (subject : PackageRef) (testName : String) (function : Function)
    (choice : Option ReceiverChoice) : PlanDraft :=
  ⟨subject, testName, targetDraft function, choice.map receiverDraft⟩

namespace Viewpoint

/-- The qualifiers that hold once some imports are noted. -/
def qualifiersIn (view : Viewpoint) (extra : ImportSet) (package : PackageRef) : String :=
  view.qualifierOf extra package.path

/-- A step that asks for the qualifiers of some packages and depends on nothing else. -/
structure Writes {α : Type} (view : Viewpoint) (step : Writing α) (asked : List PackageRef)
    (result : (PackageRef → String) → α) : Prop where
  run : ∀ extra, step.run extra =
    (result (view.qualifiersIn (asked.foldl view.noting extra)), asked.foldl view.noting extra)
  only : ∀ first second : PackageRef → String,
    (∀ package ∈ asked, first package = second package) → result first = result second

/-- The qualifier of a package that was asked for does not change with later requests. -/
theorem qualifiersIn_foldl (view : Viewpoint) (extra : ImportSet) {asked : List PackageRef}
    {package : PackageRef} (member : package ∈ asked) (later : List PackageRef) :
    view.qualifiersIn (later.foldl view.noting (asked.foldl view.noting extra)) package =
      view.qualifiersIn (asked.foldl view.noting extra) package := by
  -- Whatever is asked for behind the request leaves its answer alone.
  obtain ⟨before, behind, rfl⟩ := List.append_of_mem member
  simp only [List.foldl_append, List.foldl_cons, qualifiersIn]
  rw [← List.foldl_append, qualifierOf_foldl, qualifierOf_foldl]

namespace Writes

variable {α β : Type} {view : Viewpoint}

theorem pure (view : Viewpoint) (value : α) : view.Writes (Pure.pure value) [] fun _ => value :=
  ⟨fun _ => rfl, fun _ _ _ => rfl⟩

/-- Steps in turn ask in turn. -/
theorem bind {step : Writing α} {next : α → Writing β} {asked more : List PackageRef}
    {result : (PackageRef → String) → α} {final : α → (PackageRef → String) → β}
    (first : view.Writes step asked result)
    (second : ∀ value, view.Writes (next value) more (final value)) :
    view.Writes (step >>= next) (asked ++ more) fun qualifier =>
      final (result qualifier) qualifier := by
  constructor
  · intro extra
    -- What the first step wrote does not change with what the second one asks for.
    have settled : result (view.qualifiersIn (asked.foldl view.noting extra)) =
        result (view.qualifiersIn ((asked ++ more).foldl view.noting extra)) :=
      first.only _ _ fun package member => by
        rw [List.foldl_append, view.qualifiersIn_foldl extra member]
    have both : (step >>= next).run extra =
        (next (step.run extra).1).run (step.run extra).2 := rfl
    rw [both, first.run, (second _).run, settled, List.foldl_append]
  · intro one other agree
    rw [first.only one other fun package member => agree package (List.mem_append_left _ member)]
    exact (second _).only one other fun package member =>
      agree package (List.mem_append_right _ member)

/-- A step whose result is turned into another asks for the same. -/
theorem map {step : Writing α} {asked : List PackageRef} {result : (PackageRef → String) → α}
    (first : view.Writes step asked result) (f : α → β) :
    view.Writes (step >>= fun value => Pure.pure (f value)) asked fun qualifier =>
      f (result qualifier) := by
  have both := first.bind fun value => Writes.pure view (f value)
  rwa [List.append_nil] at both

/-- It does not matter how the list of what a step asks for is put together. -/
theorem asking {step : Writing α} {asked others : List PackageRef}
    {result : (PackageRef → String) → α} (first : view.Writes step asked result)
    (same : others = asked) : view.Writes step others result :=
  same ▸ first

theorem qualify (view : Viewpoint) (package : PackageRef) :
    view.Writes (view.qualify package) [package] fun qualifier => qualifier package :=
  ⟨fun extra => view.qualify_run extra package, fun _ _ agree => agree package (by simp)⟩

/-- Pieces are written as the stretches they are. -/
theorem pieces (view : Viewpoint) (pieces : List Piece) : view.Writes (writePieces view.qualify pieces)
    (packagesIn (pieces.map Snippet.ofPiece))
    fun qualifier => writeSnippets qualifier (pieces.map Snippet.ofPiece) := by
  induction pieces with
  | nil => exact Writes.pure view ""
  | cons piece rest ih =>
    cases piece with
    | text fixed => exact ih.map (fixed ++ ·)
    | name package name =>
      exact (qualify view package).bind fun qualifier => ih.map (qualifiedName qualifier name ++ ·)

/-- A type is written as the stretches it is. -/
theorem writeType (view : Viewpoint) (type : ResolvedType) : view.Writes (view.writeType type)
    (packagesIn (typeSnippets type)) fun qualifier => writeSnippets qualifier (typeSnippets type) :=
  Writes.pieces view type.pieces

/-- A zero value is written as the stretches it is. -/
theorem writeZero (view : Viewpoint) (type : ResolvedType) : view.Writes (view.writeZero type)
    (packagesIn (zeroSnippets type)) fun qualifier => writeSnippets qualifier (zeroSnippets type) :=
  Writes.pieces view type.zeroPieces

/-- A parameter is written as it is drafted. -/
theorem paramField (view : Viewpoint) (isFirst : Bool) (param : Var) :
    view.Writes (view.paramField isFirst param) (paramDraft isFirst param).asked
    fun qualifier => (paramDraft isFirst param).written qualifier := by
  rw [Viewpoint.paramField, paramDraft]
  split
  · -- The first parameter is a context, and the call that makes one needs a qualifier too.
    have call : (fun qualifier : PackageRef → String => qualifier .context ++ ".Background()") =
        fun qualifier => writeSnippets qualifier backgroundSnippets := by
      funext qualifier
      have rest : ".Background()" = "." ++ ("Background" ++ ("()" ++ "")) := rfl
      rw [rest, ← String.append_assoc, ← String.append_assoc]
      rfl
    have context : view.Writes (do return (← view.qualify .context) ++ ".Background()")
        (packagesIn backgroundSnippets) fun qualifier =>
          writeSnippets qualifier backgroundSnippets :=
      call ▸ (Writes.qualify view .context).map (· ++ ".Background()")
    exact (writeType view param.type).bind fun type => context.map (Field.valued type)
  · split
    · exact (writeType view param.type).bind fun type => (writeZero view param.type).map (Field.valued type)
    · exact ((writeType view param.type).map (Field.named param.name)).asking (List.append_nil _)

/-- Parameters are written as they are drafted. -/
theorem paramFieldsFrom (view : Viewpoint) (variadic : Bool) (params : List Var) (index : Nat) :
    view.Writes (view.paramFieldsFrom variadic index params)
      ((paramDraftsFrom variadic index params).flatMap FieldDraft.asked)
      fun qualifier => (paramDraftsFrom variadic index params).map
        (FieldDraft.written qualifier) := by
  induction params generalizing index with
  | nil => exact Writes.pure view []
  | cons param rest ih =>
    exact (paramField view (index == 0) param).bind fun field =>
      (ih (index + 1)).map fun fields =>
        { field with variadic := variadic && rest.isEmpty } :: fields

/-- Results are written as they are drafted. -/
theorem resultFieldsFrom (view : Viewpoint) (name : Nat → Bool → String) (results : List Var) (index : Nat) :
    view.Writes (view.resultFieldsFrom name index results)
      ((resultDraftsFrom name index results).flatMap FieldDraft.asked)
      fun qualifier => (resultDraftsFrom name index results).map
        (FieldDraft.written qualifier) := by
  induction results generalizing index with
  | nil => exact Writes.pure view []
  | cons result rest ih =>
    have step := (writeType view result.type).bind fun type =>
      (ih (index + 1)).map fun fields =>
        Field.named (name index result.type.isError) type :: fields
    refine step.asking ?_
    rw [resultDraftsFrom, List.flatMap_cons, FieldDraft.asked]
    exact congrArg (· ++ _) (List.append_nil _)

/-- A callee is written as it is drafted. -/
private theorem callee (view : Viewpoint) (name : String) (signature : Signature) (named : Nat → Bool → String) :
    view.Writes
      (do
        let args ← view.paramFields signature
        let results ← view.resultFieldsFrom named 0 signature.results
        return (⟨name, args, results⟩ : Callee))
      (CalleeDraft.mk name (paramDrafts signature)
        (resultDraftsFrom named 0 signature.results)).asked
      fun qualifier => (CalleeDraft.mk name (paramDrafts signature)
        (resultDraftsFrom named 0 signature.results)).written qualifier :=
  (paramFieldsFrom view signature.variadic signature.params 0).bind fun args =>
    (resultFieldsFrom view named signature.results 0).map (Callee.mk name args)

/-- A receiver is written as it is drafted. -/
theorem writeReceiver (view : Viewpoint) (choice : ReceiverChoice) :
    view.Writes (view.writeReceiver choice) (receiverDraft choice).asked
    fun qualifier => (receiverDraft choice).written qualifier := by
  obtain ⟨holder, base, constructor⟩ := choice
  cases constructor with
  | none =>
    refine ((writeType view base).map fun type => (⟨.named holder type, none⟩ : Receiver)).asking ?_
    rw [ReceiverDraft.asked, FieldDraft.asked]
    exact (List.append_nil _).trans (List.append_nil _)
  | some function =>
    have made := callee view function.name function.signature
      (Viewpoint.madeName holder function.signature.results.length)
    refine ((writeType view base).bind fun type => made.map fun callee =>
      (⟨.named holder type, some callee⟩ : Receiver)).asking ?_
    rw [ReceiverDraft.asked, FieldDraft.asked]
    exact congrArg (· ++ _) (List.append_nil _)

/-- A plan is written as it is drafted. -/
theorem writePlan (view : Viewpoint) (testName : String) (function : Function)
    (choice : Option ReceiverChoice) :
    view.Writes (view.writePlan testName function choice)
      (planDraft view.subject testName function choice).asked
      fun qualifier => (planDraft view.subject testName function choice).written qualifier := by
  have target := callee view function.name function.signature
    fun index isError => gotName index function.signature.results.length isError
  cases choice with
  | none =>
    exact (qualify view .testing).bind fun testing => (qualify view view.subject).bind fun package =>
      target.bind fun target => (Writes.pure view none).map (TestPlan.mk testing package testName target)
  | some choice =>
    exact (qualify view .testing).bind fun testing => (qualify view view.subject).bind fun package =>
      target.bind fun target => ((writeReceiver view choice).map some).map
        (TestPlan.mk testing package testName target)

end Writes

end Viewpoint

/-- A field draft with a mark in front of its name, if it has one. -/
def FieldDraft.marked (mark : String) (draft : FieldDraft) : FieldDraft :=
  if draft.name.isEmpty then draft else { draft with name := mark ++ draft.name }

/-- A callee draft with its named parameters marked where they share names with others. -/
def CalleeDraft.apartFrom (draft : CalleeDraft) (others : List FieldDraft) : CalleeDraft :=
  let mark := clashMark (others.map FieldDraft.name) (draft.args.map FieldDraft.name)
  { draft with args := draft.args.map (FieldDraft.marked mark) }

/-- The draft with the parameters of the constructor named apart from those of the target. -/
def PlanDraft.separated (draft : PlanDraft) : PlanDraft :=
  let apart (receiver : ReceiverDraft) : ReceiverDraft :=
    { receiver with
      constructor := receiver.constructor.map fun callee => callee.apartFrom draft.target.args }
  { draft with receiver := draft.receiver.map apart }

section Separated

variable (qualifier : PackageRef → String)

/-- What is written has the names of what it is written from. -/
theorem names_written (drafts : List FieldDraft) :
    (drafts.map (FieldDraft.written qualifier)).map Field.name = drafts.map FieldDraft.name := by
  rw [List.map_map]
  rfl

/-- Names are marked alike in a draft and in what is written from it. -/
theorem CalleeDraft.written_apartFrom (draft : CalleeDraft) (others : List FieldDraft) :
    (draft.apartFrom others).written qualifier =
      (draft.written qualifier).apartFrom (others.map (FieldDraft.written qualifier)) := by
  have marked : ∀ (mark : String) (field : FieldDraft),
      (field.marked mark).written qualifier = (field.written qualifier).marked mark := by
    intro mark field
    unfold FieldDraft.marked Field.marked Field.isNamed
    cases empty : field.name.isEmpty <;> simp [FieldDraft.written, empty]
  rw [CalleeDraft.apartFrom, Callee.apartFrom, CalleeDraft.written, CalleeDraft.written]
  dsimp only
  rw [names_written, names_written, List.map_map, List.map_map]
  congr 1
  exact List.map_congr_left fun field _ => marked _ field

/-- Names are told apart alike in a draft and in what is written from it. -/
theorem PlanDraft.written_separated (draft : PlanDraft) :
    draft.separated.written qualifier = (draft.written qualifier).separated := by
  have apart : ∀ receiver : ReceiverDraft,
      ReceiverDraft.written qualifier { receiver with
        constructor := receiver.constructor.map fun callee =>
          callee.apartFrom draft.target.args } =
      { receiver.written qualifier with
        constructor := (receiver.written qualifier).constructor.map fun callee =>
          callee.apartFrom (draft.target.written qualifier).args } := by
    intro receiver
    rw [ReceiverDraft.written, ReceiverDraft.written]
    dsimp only
    rw [Option.map_map, Option.map_map]
    congr 1
    exact Option.map_congr fun callee _ => callee.written_apartFrom qualifier draft.target.args
  rw [PlanDraft.separated, TestPlan.separated, PlanDraft.written, PlanDraft.written]
  dsimp only
  rw [Option.map_map, Option.map_map]
  congr 1
  exact Option.map_congr fun receiver _ => apart receiver

end Separated

end Scaffold
