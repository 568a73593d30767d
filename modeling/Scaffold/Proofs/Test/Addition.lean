import Scaffold.Preview
import Scaffold.Proofs.FilePath
import Scaffold.Proofs.Imports.Places
import Scaffold.Test.Generation

/-! What adding a test makes of the files of a workspace. -/

namespace Scaffold

open Go

/-- A test file replaces the tested one by a name with at most the ending replaced. -/
theorem exists_testFilePath (path : FilePath) : ∃ base rest,
    testFilePath path = path.withFileName (String.ofList base ++ "_test.go") ∧
      IsFileName (String.ofList base ++ "_test.go").toList ∧
      (path.fileName?.getD "").toList = base ++ rest ∧ rest.length ≤ 3 := by
  -- What stands in front of the ending is a part of the old name, and at most three shorter.
  have unbroken : '/' ∉ (path.fileName?.getD "").toList := by
    cases held : path.fileName? with
    | none => simp
    | some name => exact unbroken_of_fileName? held
  have cut : ∀ name : List Char, ∃ base rest, (beforeSuffix? ".go".toList name).getD name = base ∧
      name = base ++ rest ∧ rest.length ≤ 3 := by
    intro name
    rw [beforeSuffix?]
    split
    · exact ⟨_, _, rfl, (List.take_append_drop _ _).symm, by rw [List.length_drop]; simp; omega⟩
    · exact ⟨name, [], rfl, by simp, by simp⟩
  obtain ⟨base, rest, kept, whole, short⟩ := cut (path.fileName?.getD "").toList
  refine ⟨base, rest, ?_, ?_, whole, short⟩
  · rw [testFilePath]
    simp only [kept]
  rw [whole, List.mem_append, not_or] at unbroken
  rw [String.toList_append, String.toList_ofList]
  refine ⟨?_, ?_, ?_⟩
  · rw [List.mem_append, not_or]
    exact ⟨unbroken.1, by decide⟩
  · cases base with
    | nil => decide
    | cons c base => simp [FilePath.isVoid]
  · intro parent
    have := congrArg List.length parent
    simp at this

/-- A test file has the name of the tested file, with at most its ending replaced. -/
theorem exists_fileName?_testFilePath (path : FilePath) :
    ∃ base rest, (testFilePath path).fileName? = some (String.ofList base ++ "_test.go") ∧
      (path.fileName?.getD "").toList = base ++ rest ∧ rest.length ≤ 3 := by
  obtain ⟨base, rest, changed, is, whole, short⟩ := exists_testFilePath path
  refine ⟨base, rest, ?_, whole, short⟩
  rw [changed, FilePath.withFileName]
  split
  · exact fileName?_join is _
  · exact fileName?_join is _

/-- A test file is named after the tested file, but never like it. -/
theorem testFilePath_not_same (path : FilePath) : (testFilePath path).same path = false := by
  rw [Bool.eq_false_iff]
  intro same
  obtain ⟨base, rest, named, whole, short⟩ := exists_fileName?_testFilePath path
  rw [← fileName?_of_same same, named, Option.getD_some, String.toList_append,
    String.toList_ofList] at whole
  have longer := congrArg List.length whole
  simp only [List.length_append] at longer
  have ending : "_test.go".toList.length = 8 := rfl
  omega

/-- The path of a file has no part in a merge of its imports. -/
theorem mergeImports_path (setting : Option String) (path other : FilePath) (text : String)
    (imports : List Import) : mergeImports setting (.ofText path text) imports =
      mergeImports setting (.ofText other text) imports :=
  rfl

/--
All of a file is found again in another text, in the same order.

At most one import declaration without parentheses may be missing.
-/
def IsKept (file : SourceFile) (merged : String) : Prop :=
  ∃ before cut after, file.text.toList = before ++ (cut ++ after) ∧
    (before ++ after).Sublist merged.toList ∧
    (cut = [] ∨ ∃ decl ∈ file.importDecls, decl.close = none ∧ decl.start = byteLength before ∧
      decl.stop = byteLength (before ++ cut))

/-- The edits of a merge can be applied, and keep the file. -/
theorem applyEdits_mergeImports {setting : Option String} {path : FilePath} {text : String}
    {imports : List Import} {edits : List Edit}
    (found : mergeImports setting (.ofText path text) imports = .ok edits) :
    ∃ merged, applyEdits text edits = .ok merged ∧ IsKept (.ofText path text) merged := by
  rcases mergeImports_edits found with insertions | ⟨decl, member, single, new, rfl⟩
  · obtain ⟨merged, applied, kept⟩ := applyEdits_insertions insertions
    exact ⟨merged, applied, text.toList, [], [], by simp [SourceFile.ofText], by simpa using kept,
      .inl rfl⟩
  · obtain ⟨first, second, ordered, -⟩ := isCut_of_decl member
    obtain ⟨before, rest, split, start⟩ := first
    obtain ⟨front, after, split', stop⟩ := second
    rw [← start, ← stop] at ordered
    obtain ⟨cut, rfl, rfl⟩ := append_eq_append_of_le (split.symm.trans split') ordered
    have made := applyEdits_replacement before cut after new
    rw [← split, String.ofList_toList, ← byteLength_append, start, stop] at made
    refine ⟨_, made, before, cut, after, split, ?_, .inr ⟨decl, member, single, start.symm,
      stop.symm⟩⟩
    rw [String.toList_ofList, List.append_assoc]
    exact (List.Sublist.refl before).append (List.sublist_append_right _ _)

/-- A step that goes well, and the one behind it. -/
theorem Except.of_bind_eq_ok {ε α β : Type} {first : Except ε α} {next : α → Except ε β} {b : β}
    (both : (first >>= next) = .ok b) : ∃ a, first = .ok a ∧ next a = .ok b := by
  cases first with
  | error error => cases both
  | ok a => exact ⟨a, rfl, both⟩

/-- What is worked out on the way to a test in a workspace. -/
structure IsPlanned (tree : FileTree) (setting : Option String) (location : Location)
    (subject : Subject) (site : TestSite) (imports : List Import) (test : String) : Prop where
  opened : ∃ package, loadPackage (tree.workspace setting) location.path = .ok package ∧
    openSubject package location.path = .ok subject
  sited : siteOf subject (testFilePath location.path) (tree.read? (testFilePath location.path)) =
    .ok site
  written : ∃ function plan, targetOf subject location.range = .ok function ∧
    planTest subject site function = .ok (plan, imports) ∧ plan.render = .ok test

theorem ofExcept_self {α : Type} (result : Except Failure α) :
    (ofExcept result : Except Failure α) = result := by
  cases result <;> rfl

/-- A test that is added has been planned, and its changes are those of its destination. -/
theorem addTest_eq_ok {tree : FileTree} {setting : Option String} {location : Location}
    {changes : List Change} (added : addTest (tree.workspace setting) location = .ok changes) :
    ∃ subject site imports test, IsPlanned tree setting location subject site imports test ∧
      site.destination.changes test imports setting = .ok changes := by
  obtain ⟨package, loaded, withPackage⟩ := Except.of_bind_eq_ok added
  obtain ⟨subject, opened, withSubject⟩ := Except.of_bind_eq_ok withPackage
  obtain ⟨text, read, withText⟩ := Except.of_bind_eq_ok withSubject
  obtain ⟨site, sited, made⟩ := Except.of_bind_eq_ok withText
  cases read
  rw [ofExcept_self] at opened sited made
  obtain ⟨function, target, withTarget⟩ := Except.of_bind_eq_ok made
  obtain ⟨⟨plan, imports⟩, planned, finish⟩ := Except.of_bind_eq_ok withTarget
  simp only [writeTest] at finish
  split at finish
  · cases finish
  · rename_i test rendered
    exact ⟨subject, site, imports, test, ⟨⟨package, loaded, opened⟩, sited,
      ⟨function, plan, target, planned, rendered⟩⟩, finish⟩

/-- A test that has been planned is added. -/
theorem addTest_of_planned {tree : FileTree} {setting : Option String} {location : Location}
    {subject : Subject} {site : TestSite} {imports : List Import} {test : String}
    (planned : IsPlanned tree setting location subject site imports test) :
    addTest (tree.workspace setting) location = site.destination.changes test imports setting := by
  obtain ⟨⟨package, loaded, opened⟩, sited, function, plan, target, found, rendered⟩ := planned
  have read : (tree.workspace setting).read (testFilePath location.path) =
      .ok (tree.read? (testFilePath location.path)) := rfl
  have own : (tree.workspace setting).ownPrefix = setting := rfl
  rw [addTest, loaded]
  simp only [bind, Except.bind, opened, read, sited, ofExcept_self, testChanges, target, found, writeTest,
    rendered, own]

/-- Insertions into an empty text follow one another. -/
theorem applyEdits_empty (first second third : String) :
    applyEdits "" [.insertion 0 first, .insertion 0 second, .insertion 0 third] =
      .ok (first ++ second ++ third) := by
  have insert : ∀ (new : String) (later : List Edit),
      applyOrdered 0 0 [] (.insertion 0 new :: later) =
        (applyOrdered 0 0 [] later).map (new.toList ++ ·) := by
    intro new later
    exact applyOrdered_insertion [] [] new (Nat.le_refl 0)
  have ordered : orderEdits [.insertion 0 first, .insertion 0 second, .insertion 0 third] =
      [.insertion 0 first, .insertion 0 second, .insertion 0 third] :=
    orderEdits_of_pairwise (by simp [Edit.insertion])
  have all : applyOrdered 0 0 [] [.insertion 0 first, .insertion 0 second, .insertion 0 third] =
      .ok (first.toList ++ (second.toList ++ (third.toList ++ []))) := by
    rw [insert, insert, insert]
    rfl
  have text : "".toList = [] := rfl
  rw [applyEdits_eq, ordered, text, byteLength_nil, all]
  simp [Except.map, String.append_assoc]

section Preview

variable {tree : FileTree} {setting : Option String} {path : FilePath} {edits : List Edit}

/-- The one file among the files is found, and replaced. -/
private theorem replaced (path : FilePath) (text edited : String) :
    (FileTree.mk [(path, text)]).read? path = some text ∧
      ((FileTree.mk [(path, text)]).remove path).insert path edited = ⟨[(path, edited)]⟩ := by
  simp [FileTree.read?, FileTree.remove, FileTree.insert, FileTree.insertInto, same_refl]

/-- A new file is seen as what its edits make of nothing. -/
theorem preview_created {final : String} (absent : tree.read? path = none)
    (applied : applyEdits "" edits = .ok final) :
    preview (tree.workspace setting) [.create path, .edit path edits] = .ok ⟨[(path, final)]⟩ := by
  have created : applyChange (tree.workspace setting) .empty (.create path) =
      .ok ⟨[(path, "")]⟩ := by
    have read : (tree.workspace setting).read path = .ok none := congrArg Except.ok absent
    rw [applyChange, read]
    rfl
  have edited : applyChange (tree.workspace setting) ⟨[(path, "")]⟩ (.edit path edits) =
      .ok ⟨[(path, final)]⟩ := by
    rw [applyChange, (replaced path "" final).1]
    simp only [pure_bind, applied]
    rw [(replaced path "" final).2]
    rfl
  rw [preview, List.foldlM_cons, created]
  exact congrArg (· >>= pure) edited

/-- A file that is edited is seen as what the edits make of its text. -/
theorem preview_edited {text final : String} (held : tree.read? path = some text)
    (applied : applyEdits text edits = .ok final) :
    preview (tree.workspace setting) [.edit path edits] = .ok ⟨[(path, final)]⟩ := by
  have edited : applyChange (tree.workspace setting) .empty (.edit path edits) =
      .ok ⟨[(path, final)]⟩ := by
    have read : (tree.workspace setting).read path = .ok (some text) := congrArg Except.ok held
    have nothing : FileTree.empty.read? path = none := rfl
    rw [applyChange, nothing, read]
    simp only [bind, Except.bind, pure, Except.pure, applied]
    rfl
  exact congrArg (· >>= pure) edited

end Preview

/--
Adding a test touches one file, which is not the tested one.

A new file holds its head, its imports and the test.
A file that is there keeps all it held, up to one import declaration without parentheses.
Its imports are merged and the test comes behind everything.
-/
theorem preview_addTest {tree : FileTree} {setting : Option String} {location : Location}
    {changes : List Change} (added : addTest (tree.workspace setting) location = .ok changes) :
    (testFilePath location.path).same location.path = false ∧
    ∃ subject site imports test final,
      IsPlanned tree setting location subject site imports test ∧
      preview (tree.workspace setting) changes = .ok ⟨[(testFilePath location.path, final)]⟩ ∧
      (tree.read? (testFilePath location.path) = none →
        changes = [.create (testFilePath location.path), .edit (testFilePath location.path)
          [.insertion 0 (newFileHeader subject.file subject.package.name),
            .insertion 0 (importBlock setting imports), .insertion 0 test]] ∧
        final = newFileHeader subject.file subject.package.name ++ importBlock setting imports ++
          test) ∧
      ∀ text, tree.read? (testFilePath location.path) = some text →
        ∃ edits merged, importEdits setting text imports = .ok edits ∧
          changes = [.edit (testFilePath location.path)
            (edits ++ [.insertion (byteLength text.toList) test])] ∧
          applyEdits text edits = .ok merged ∧ final = merged ++ test ∧
          IsKept (.ofText (testFilePath location.path) text) merged := by
  refine ⟨testFilePath_not_same _, ?_⟩
  obtain ⟨subject, site, imports, test, planned, made⟩ := addTest_eq_ok added
  have sited := planned.sited
  cases held : tree.read? (testFilePath location.path) with
  | none =>
    rw [held, siteOf] at sited
    cases sited
    cases made
    exact ⟨subject, _, imports, test, _, planned,
      preview_created held (applyEdits_empty _ _ _), fun _ => ⟨rfl, rfl⟩, by simp⟩
  | some text =>
    rw [held] at sited
    obtain ⟨package, -, sited⟩ := Except.of_bind_eq_ok sited
    obtain ⟨declared, -, sited⟩ := Except.of_bind_eq_ok sited
    cases sited
    rw [Destination.changes] at made
    split at made
    · cases made
    · rename_i edits found
      cases made
      obtain ⟨merged, applied, kept⟩ := applyEdits_mergeImports found
      refine ⟨subject, _, imports, test, merged ++ test, planned,
        preview_edited held (applyEdits_concat test applied), by simp, ?_⟩
      intro text' same
      cases same
      exact ⟨edits, merged, found, rfl, applied, rfl, kept⟩

/-- A module of one package with one function. -/
def oneFunction : FileTree :=
  ⟨[(⟨"go.mod"⟩, "module m"), (⟨"p.go"⟩, "package p\nfunc F() {}")]⟩

/-- The place of that function. -/
def thatFunction : Location :=
  ⟨⟨"p.go"⟩, .point ⟨1, 6⟩⟩

/-- Whether a function has a name and nothing else. -/
def Go.Function.isBare (function : Function) (name : String) : Bool :=
  function.name == name && function.receiver.isNone && function.signature.params.isEmpty &&
    function.signature.results.isEmpty && !function.signature.variadic

/-- That function is found in its package. -/
theorem opened_oneFunction : ∃ package subject function,
    loadPackage (oneFunction.workspace none) thatFunction.path = .ok package ∧
    openSubject package thatFunction.path = .ok subject ∧
    targetOf subject thatFunction.range = .ok function ∧
    function.isBare "F" = true ∧ subject.package.ref = ⟨"m", "p"⟩ ∧ subject.imports = [] := by
  have checked : (match loadPackage (oneFunction.workspace none) thatFunction.path with
    | .error _ => false
    | .ok package => match openSubject package thatFunction.path with
      | .error _ => false
      | .ok subject => match targetOf subject thatFunction.range with
        | .error _ => false
        | .ok function => function.isBare "F" && subject.package.ref == ⟨"m", "p"⟩ &&
          subject.imports.isEmpty) = true := by decide +kernel
  split at checked
  · cases checked
  rename_i package loaded
  split at checked
  · cases checked
  rename_i subject opened
  split at checked
  · cases checked
  rename_i function target
  simp only [Bool.and_eq_true, beq_iff_eq, List.isEmpty_iff] at checked
  exact ⟨package, subject, function, loaded, opened, target, checked.1.1, checked.1.2, checked.2⟩

/-- A bare function is given a test, seen from outside its package. -/
theorem planTest_bare {subject : Subject} {site : TestSite} {function : Function}
    (bare : function.isBare "F" = true)
    (view : viewpointOf subject site = ⟨⟨"m", "p"⟩, true, [], []⟩)
    (fresh : site.destination.functionNames = []) : ∃ plan imports test,
      planTest subject site function = .ok (plan, imports) ∧ plan.render = .ok test := by
  obtain ⟨name, owner, receiver, ⟨params, results, variadic⟩, file, start⟩ := function
  simp only [Go.Function.isBare, Bool.and_eq_true, beq_iff_eq, List.isEmpty_iff,
    Option.isNone_iff_eq_none, Bool.not_eq_true'] at bare
  obtain ⟨⟨⟨⟨rfl, rfl⟩, rfl⟩, rfl⟩, rfl⟩ := bare
  have exported : Go.isExported "F" = true := by decide +kernel
  have visible : checkVisibility ⟨"F", owner, none, ⟨[], [], false⟩, file, start⟩
      subject.package.name = .ok () := by
    rw [checkVisibility, Function.isExported, exported]
    rfl
  have named : testName ⟨"F", owner, none, ⟨[], [], false⟩, file, start⟩ = .ok "TestF" := by
    rw [testName, Function.isExported, exported]
    rfl
  have unique : uniqueTestName "TestF" [] = "TestF" := rfl
  -- What is written does not depend on where the function comes from.
  obtain ⟨written, whole⟩ : ∃ written, written =
      ((⟨⟨"m", "p"⟩, true, [], []⟩ : Viewpoint).writePlan "TestF"
        ⟨"F", default, none, ⟨[], [], false⟩, default, 0⟩ none).run [] := ⟨_, rfl⟩
  have planned : planTest subject site ⟨"F", owner, none, ⟨[], [], false⟩, file, start⟩ =
      .ok (written.1.separated, neededImports written.2) := by
    rw [planTest, view, if_pos rfl, visible, fresh]
    simp only [bind, Except.bind, named, unique]
    rw [whole]
    rfl
  have complete : written.1.separated.render.isOk = true := by
    rw [whole]
    decide +kernel
  cases rendered : written.1.separated.render with
  | error error =>
    rw [rendered] at complete
    cases complete
  | ok test => exact ⟨_, _, test, planned, rendered⟩

theorem preview_addTest_oneFunction : ∃ changes final,
    addTest (oneFunction.workspace none) thatFunction = .ok changes ∧
    preview (oneFunction.workspace none) changes = .ok ⟨[(⟨"p_test.go"⟩, final)]⟩ := by
  obtain ⟨package, subject, function, loaded, opened, target, bare, ref, imports⟩ :=
    opened_oneFunction
  have absent : oneFunction.read? (testFilePath thatFunction.path) = none := by decide +kernel
  have beside : testFilePath thatFunction.path = ⟨"p_test.go"⟩ := by decide +kernel
  have view : viewpointOf subject ⟨.fresh (testFilePath thatFunction.path)
      (newFileHeader subject.file subject.package.name), .external, []⟩ =
      ⟨⟨"m", "p"⟩, true, [], []⟩ := by
    rw [viewpointOf, ref, imports]
    rfl
  obtain ⟨plan, needed, test, planned, rendered⟩ := planTest_bare bare view rfl
  have added := addTest_of_planned ⟨⟨package, loaded, opened⟩, congrArg (siteOf subject _) absent,
    ⟨function, plan, target, planned, rendered⟩⟩
  obtain ⟨-, _, _, _, _, final, -, previewed, -⟩ := preview_addTest added
  exact ⟨_, final, added, beside ▸ previewed⟩

end Scaffold
