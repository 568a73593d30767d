import Scaffold.Proofs.Test.Complete
import Scaffold.Proofs.Test.Unrelated

/-! A test that is planned can be written: what fails on the way to it, fails before its plan. -/

namespace Scaffold

open Go

/-- Whether a failure lies in the plan of a test or in the imports that are added for it. -/
def Failure.isOfWriting : Failure → Bool
  | .plan _ | .merge _ => true
  | _ => false

/-- A step that makes something good, or fails for a reason other than what is to be written. -/
structure Prepares {α : Type} (step : Except Failure α) (good : α → Prop) : Prop where
  made : ∀ value, step = .ok value → good value
  failed : ∀ failure, step = .error failure → failure.isOfWriting = false

namespace Prepares

variable {α β : Type} {step : Except Failure α} {good better : α → Prop} {fine : β → Prop}

theorem pure {value : α} (holds : good value) : Prepares (.ok value) good :=
  ⟨fun _ same => Except.ok.inj same ▸ holds, nofun⟩

theorem fail {failure : Failure} (early : failure.isOfWriting = false) :
    Prepares (.error failure) good :=
  ⟨nofun, fun _ same => Except.error.inj same ▸ early⟩

theorem bind {next : α → Except Failure β} (first : Prepares step good)
    (second : ∀ value, good value → Prepares (next value) fine) :
    Prepares (step >>= next) fine := by
  cases step with
  | error failure => exact .fail (first.failed failure rfl)
  | ok value => exact second value (first.made value rfl)

/-- What is known of the result may rest on how it was made. -/
theorem of_made (first : Prepares step good)
    (holds : ∀ value, step = .ok value → good value → better value) : Prepares step better :=
  ⟨fun value made => holds value made (first.made value made), first.failed⟩

end Prepares

/-- A package that was read: its files from texts, and with names that are not empty. -/
structure Go.Package.IsRead (package : Package) : Prop where
  read : ∀ file ∈ package.files, ∃ path text, file = .ofText path text
  declared : ∀ entry ∈ package.metadata.deps, entry.2 ≠ ""
  spelled : ∀ function ∈ package.functions, function.IsSpelled

section Loading

variable {tree : FileTree} {setting : Option String}

theorem prepares_read (path : FilePath) :
    Prepares ((tree.workspace setting).read path) fun _ => True :=
  .pure trivial

theorem prepares_list (directory : FilePath) :
    Prepares ((tree.workspace setting).list directory) fun _ => True :=
  .pure trivial

theorem prepares_moduleIn (directories : List FilePath) :
    Prepares (moduleIn (tree.workspace setting) directories) fun _ => True := by
  induction directories with
  | nil => exact .pure trivial
  | cons directory above ih =>
    -- A directory without a module is passed over, and a module without a path is refused.
    rw [moduleIn]
    refine (prepares_read _).bind fun text _ => ?_
    cases text with
    | none => exact ih
    | some text =>
      dsimp only
      split
      · exact .fail rfl
      · exact .pure trivial

/-- Files are read from texts. -/
theorem prepares_readSources (paths : List FilePath) :
    Prepares (readSources (tree.workspace setting) paths) fun sources =>
      ∀ file ∈ sources, ∃ path text, file = .ofText path text := by
  induction paths with
  | nil => exact .pure (by simp)
  | cons path rest ih =>
    rw [readSources]
    refine (prepares_read _).bind fun text _ => ?_
    cases text with
    | none => exact ih
    | some text =>
      exact ih.bind fun sources read => .pure (List.forall_mem_cons.mpr ⟨⟨_, _, rfl⟩, read⟩)

/-- A package that is found declares a name. -/
theorem prepares_declaredPackage (paths : List FilePath) :
    Prepares (declaredPackage (tree.workspace setting) paths) fun found =>
      ∀ name ∈ found, name ≠ "" := by
  induction paths with
  | nil => exact .pure (by simp)
  | cons path rest ih =>
    rw [declaredPackage]
    refine (prepares_read _).bind fun text _ => ?_
    cases text with
    | none => exact ih
    | some text =>
      dsimp only
      split
      · exact ih
      · rename_i declared
        exact .pure (by simpa using packageName_ne declared)

theorem prepares_findDeps (module : Module) {known : List (String × String)}
    (named : ∀ entry ∈ known, entry.2 ≠ "") (imports : List String) :
    Prepares (findDeps (tree.workspace setting) module known imports) fun deps =>
      ∀ entry ∈ deps, entry.2 ≠ "" := by
  induction imports generalizing known with
  | nil => exact .pure named
  | cons path rest ih =>
    -- A path is looked up if it is not known yet and lies in the module.
    rw [findDeps]
    split
    · refine (prepares_list _).bind fun listed _ => ?_
      refine (prepares_declaredPackage _).bind fun found declared => ?_
      cases found with
      | none => exact ih named
      | some name =>
        -- Either the entry was just found, or it was known before.
        refine ih fun entry member => ?_
        rcases mem_insertKeyed member with rfl | old
        · exact declared name rfl
        · exact named entry old
    · exact ih named

theorem prepares_findMetadata (directory : FilePath) (name : String) (files : List SourceFile) :
    Prepares (findMetadata (tree.workspace setting) directory name files) fun metadata =>
      ∀ entry ∈ metadata.deps, entry.2 ≠ "" := by
  refine (prepares_moduleIn _).bind fun found _ => ?_
  cases found with
  | none => exact .pure (by simp)
  | some module =>
    exact (prepares_findDeps module (by simp) _).bind fun deps named => .pure named

/-- A package is loaded from texts. -/
theorem prepares_loadPackage (path : FilePath) :
    Prepares (loadPackage (tree.workspace setting) path) Package.IsRead := by
  rw [loadPackage]
  refine (prepares_read _).bind fun text _ => ?_
  cases text with
  | none => exact .fail rfl
  | some text =>
    dsimp only
    split
    · exact .fail rfl
    · refine (prepares_list _).bind fun listed _ => ?_
      refine (prepares_readSources _).bind fun siblings read => ?_
      -- The files are the siblings and the file itself, all of them read from texts.
      generalize members : sortOrdered _ _ = files
      refine (prepares_findMetadata _ _ files).bind fun metadata declared => ?_
      have whole : ∀ file ∈ files, ∃ path text, file = .ofText path text := by
        intro file member
        rw [← members] at member
        rcases List.mem_append.mp ((sortOrdered_perm _ _).mem_iff.mp member) with other | own
        · exact read file (List.mem_filter.mp other).1
        · exact ⟨_, _, List.mem_singleton.mp own⟩
      exact .pure ⟨by simpa using whole, by simpa using declared,
        fun function => isSpelled_of_mem_functions whole⟩

end Loading

section Planning

variable {package : Package} {subject : Subject} {site : TestSite}

/-- The imports of a text are named, unless one of them brings names in without a qualifier. -/
theorem prepares_fileImports {deps : List (String × String)}
    (declared : ∀ entry ∈ deps, entry.2 ≠ "") (path : FilePath) (text : String) :
    Prepares (fileImports deps (.ofText path text)) NamesTesting := by
  have collect : ∀ file specs names, Prepares (collectNames deps file names specs)
      fun _ => True := by
    intro file specs
    induction specs with
    | nil => exact fun _ => .pure trivial
    | cons spec specs ih =>
      intro names
      rw [collectNames]
      split
      · exact .fail rfl
      · split
        · exact ih names
        · exact ih _
  exact (collect _ _ _).of_made fun names collected _ =>
    namesTesting_of_fileImports declared collected

/-- A file whose names are taken is one of the package. -/
theorem prepares_openSubject (read : package.IsRead) (path : FilePath) :
    Prepares (openSubject package path) fun subject =>
      subject.package = package ∧ NamesTesting subject.imports := by
  have checked : Prepares (checkPackage package) fun _ => True := by
    unfold checkPackage
    split
    · exact .fail rfl
    · split
      · exact .fail rfl
      · split
        · exact .pure trivial
        · exact .fail rfl
  refine checked.bind fun _ _ => ?_
  split
  · exact .fail rfl
  · rename_i file found
    obtain ⟨place, text, rfl⟩ := read.read file (List.mem_of_find?_eq_some found)
    exact (prepares_fileImports read.declared place text).bind fun names named => .pure ⟨rfl, named⟩

/-- A test goes to a new file, or to one that declares its package. -/
theorem prepares_siteOf (read : subject.package.IsRead) (path : FilePath) (text : Option String) :
    Prepares (siteOf subject path text) fun site => NamesTesting site.imports ∧
      ∀ file, site.destination = .existing file → file.package?.isSome = true := by
  cases text with
  | none => exact .pure ⟨nofun, nofun⟩
  | some text =>
    -- A file without a package clause is refused, long before imports are merged into it.
    have belongs : Prepares (testPackage subject.package.name (.ofText path text)) fun _ =>
        (SourceFile.ofText path text).package?.isSome = true := by
      unfold testPackage
      split
      · exact .fail rfl
      · rename_i declared
        have some := Option.isSome_of_eq_some declared
        rw [SourceFile.packageName?, Option.isSome_map] at some
        split
        · exact .pure some
        · split
          · exact .pure some
          · exact .fail rfl
    refine belongs.bind fun _ some => ?_
    refine (prepares_fileImports read.declared path text).bind fun names named => ?_
    refine .pure ⟨named, ?_⟩
    rintro file ⟨⟩
    exact some

theorem prepares_targetOf (range : Range) :
    Prepares (targetOf subject range) fun function => function ∈ subject.package.functions := by
  have found : Prepares (targetOf subject range) fun _ => True := by
    unfold targetOf
    split
    · exact .fail rfl
    · split
      · exact .fail rfl
      · split
        · exact .fail rfl
        · exact .pure trivial
  exact found.of_made fun function target _ => mem_functions_of_targetOf target

/-- The plan of a test is complete, unless the tested package is the one for tests. -/
theorem prepares_planTest {function : Function} (read : subject.package.IsRead)
    (outside : subject.package.ref.path ≠ PackageRef.testing.path)
    (here : NamesTesting site.imports) (there : NamesTesting subject.imports)
    (member : function ∈ subject.package.functions) :
    Prepares (planTest subject site function) fun planned => planned.1.IsComplete := by
  have receiver : Prepares (receiverTypeName function) fun _ => True := by
    unfold receiverTypeName
    split
    · exact .pure trivial
    · exact .fail rfl
  have visible : Prepares (checkVisibility function subject.package.name) fun _ => True := by
    unfold checkVisibility
    split
    · exact .fail rfl
    · split
      · refine receiver.bind fun name _ => ?_
        split
        · exact .pure trivial
        · exact .fail rfl
      · exact .pure trivial
  have titled : Prepares (testName function) fun _ => True := by
    unfold testName
    split
    · exact receiver.bind fun _ _ => .pure trivial
    · exact .pure trivial
  have chosen : ∀ functions external,
      Prepares (chooseReceiver functions function external) fun _ => True := by
    intro functions external
    unfold chooseReceiver
    split
    · exact .pure trivial
    · refine receiver.bind fun _ _ => ?_
      split
      · exact .fail rfl
      · exact .pure trivial
  -- Visibility, title and receiver may be refused; writing the plan itself cannot fail.
  have planned : Prepares (planTest subject site function) fun _ => True := by
    have rest : Prepares (do
        let name := uniqueTestName (← testName function) site.destination.functionNames
        let choice ← chooseReceiver subject.package.plainFunctions function
          (viewpointOf subject site).external
        let written := ((viewpointOf subject site).writePlan name function choice).run []
        return (written.1.separated, neededImports written.2)) fun _ => True :=
      titled.bind fun _ _ => (chosen _ _).bind fun _ _ => .pure trivial
    rw [planTest]
    split
    · exact visible.bind fun _ _ => rest
    · exact rest
  refine planned.of_made fun result made _ => ?_
  -- What is planned is written from a draft, under the qualifiers that were asked for.
  obtain ⟨plan, imports⟩ := result
  obtain ⟨draft, extra, drafted, rfl, -⟩ := planTest_eq_ok made
  obtain ⟨name, choice, named, chosen, rfl⟩ := drafted.drafted
  refine isComplete_planDraft chosen (read.spelled function member)
    (fun other plain => read.spelled other (mem_functions_of_plain plain))
    (uniqueTestName_ne (testName_ne named) _) ?_
  rw [drafted.noted]
  exact qualifiersIn_testing_ne outside here there _

/-- What is planned at a location is complete, and goes to no file without a package clause. -/
theorem prepares_plannedAt {tree : FileTree} {location : Location}
    (outside : ∀ package, loadPackage (tree.workspace none) location.path = .ok package →
      package.ref.path ≠ PackageRef.testing.path) :
    Prepares (plannedAt tree location) fun found => found.plan.IsComplete ∧
      ∀ file, found.site.destination = .existing file → file.package?.isSome = true := by
  have loaded : Prepares (loadPackage (tree.workspace none) location.path) fun package =>
      package.IsRead ∧ package.ref.path ≠ PackageRef.testing.path :=
    (prepares_loadPackage _).of_made fun package made read => ⟨read, outside package made⟩
  -- Each stage rests on what the stages before it have made.
  refine loaded.bind fun package ⟨read, apart⟩ => ?_
  refine (prepares_openSubject read _).bind fun subject ⟨same, there⟩ => ?_
  subst same
  refine (prepares_siteOf read _ _).bind fun site ⟨here, clause⟩ => ?_
  refine (prepares_targetOf _).bind fun function member => ?_
  exact (prepares_planTest read apart here there member).bind fun planned complete =>
    .pure ⟨complete, clause⟩

end Planning

section Writing

variable {tree : FileTree} {location : Location} {setting : Option String}

/-- A test is added by writing what is planned for it. -/
theorem addTest_eq_plannedAt : addTest (tree.workspace setting) location =
    plannedAt tree location >>= fun found =>
      writeTest found.site setting found.plan found.imports := by
  -- The setting only matters to the imports that are written.
  rw [addTest, plannedAt, loadPackage_workspace tree setting none]
  simp only [ofExcept_self, bind_assoc, pure_bind, testChanges]
  rfl

/-- Imports can be merged into a file with a package clause. -/
theorem exists_mergeImports {file : SourceFile} (clause : file.package?.isSome = true)
    (setting : Option String) (imports : List Import) :
    ∃ edits, mergeImports setting file imports = .ok edits := by
  obtain ⟨clause, found⟩ := Option.isSome_iff_exists.mp clause
  -- Without any declaration of imports, the new one goes behind the package clause.
  unfold mergeImports
  split
  · exact ⟨_, rfl⟩
  · split
    · exact ⟨_, rfl⟩
    · split
      · exact ⟨_, rfl⟩
      · rw [found]
        exact ⟨_, rfl⟩

/-- A complete plan is written to a new file, and to one that has a package clause. -/
theorem exists_writeTest {site : TestSite} {plan : TestPlan} (complete : plan.IsComplete)
    (clause : ∀ file, site.destination = .existing file → file.package?.isSome = true)
    (setting : Option String) (imports : List Import) :
    ∃ changes, writeTest site setting plan imports = .ok changes := by
  have rendered : plan.render = .ok (renderLines plan.lines) := by
    rw [TestPlan.render, TestPlan.check_eq_ok_iff.mpr complete]
    rfl
  rw [writeTest, rendered]
  dsimp only
  cases held : site.destination with
  | fresh path header => exact ⟨_, rfl⟩
  | existing file =>
    obtain ⟨edits, merged⟩ := exists_mergeImports (clause file held) setting imports
    rw [Destination.changes, merged]
    exact ⟨_, rfl⟩

theorem Failure.kind_ne_render {failure : Failure} (early : failure.isOfWriting = false) :
    failure.kind ≠ .render ∧ ∀ error, failure ≠ .merge error := by
  cases failure with
  | plan error | merge error => cases early
  | _ => exact ⟨nofun, nofun⟩

/-- What fails, fails before a test is planned, unless the tested package is the one for tests.
Each plan is complete and passes its check, what imports are merged into has a package clause, and
so each test that is planned is added. -/
theorem addTest_of_plannedAt (tree : FileTree) (setting : Option String) (location : Location)
    (outside : ∀ package, loadPackage (tree.workspace setting) location.path = .ok package →
      package.ref.path ≠ "testing") :
    (∀ failure, addTest (tree.workspace setting) location = .error failure →
      failure.kind ≠ .render ∧ ∀ error, failure ≠ .merge error) ∧
    ∀ found, plannedAt tree location = .ok found →
      found.plan.IsComplete ∧ found.plan.check = .ok () ∧
      (∀ file, found.site.destination = .existing file → file.package?.isSome = true) ∧
      ∃ changes, addTest (tree.workspace setting) location = .ok changes := by
  have prepares := prepares_plannedAt fun package loaded =>
    outside package ((loadPackage_workspace tree setting none location.path).trans loaded)
  rw [addTest_eq_plannedAt]
  constructor
  · intro failure failed
    -- Either planning fails, early enough, or the planned test is written without fail.
    cases located : plannedAt tree location with
    | error other =>
      rw [located] at failed
      cases failed
      exact Failure.kind_ne_render (prepares.failed failure located)
    | ok found =>
      obtain ⟨complete, clause⟩ := prepares.made found located
      obtain ⟨changes, written⟩ := exists_writeTest complete clause setting found.imports
      rw [located] at failed
      cases written.symm.trans failed
  · intro found located
    obtain ⟨complete, clause⟩ := prepares.made found located
    refine ⟨complete, TestPlan.check_eq_ok_iff.mpr complete, clause, ?_⟩
    rw [located]
    exact exists_writeTest complete clause setting found.imports

/-- The test of the one function is planned and added. -/
theorem addTest_of_plannedAt_oneFunction :
    (∀ package, loadPackage (oneFunction.workspace none) thatFunction.path = .ok package →
      package.ref.path ≠ "testing") ∧
    ∃ found changes, plannedAt oneFunction thatFunction = .ok found ∧
      found.plan.IsComplete ∧ found.plan.check = .ok () ∧
      addTest (oneFunction.workspace none) thatFunction = .ok changes := by
  obtain ⟨package, subject, function, loaded, opened, -, -, ref, -⟩ := opened_oneFunction
  have outside : ∀ package, loadPackage (oneFunction.workspace none) thatFunction.path =
      .ok package → package.ref.path ≠ "testing" := by
    intro other same
    obtain rfl := Except.ok.inj (loaded.symm.trans same)
    -- The package is the one that was opened, and its path is `m`.
    rw [← (openSubject_eq_ok opened).1, ref]
    decide
  obtain ⟨found, located, -⟩ := exists_plannedAt oneFunction thatFunction (fun _ => true)
    (by decide +kernel)
  obtain ⟨complete, checked, -, changes, added⟩ :=
    (addTest_of_plannedAt oneFunction none thatFunction outside).2 found located
  exact ⟨outside, found, changes, located, complete, checked, added⟩

end Writing

/-- A planned test is added, unless the tested package is the one for tests. -/
theorem exists_addTest {tree : FileTree} {location : Location} {found : PlannedTest}
    (located : plannedAt tree location = .ok found)
    (outside : found.subject.package.ref.path ≠ PackageRef.testing.path)
    (setting : Option String) :
    ∃ changes, addTest (tree.workspace setting) location = .ok changes := by
  obtain ⟨package, loaded, withPackage⟩ := Except.of_bind_eq_ok located
  obtain ⟨subject, opened, withSubject⟩ := Except.of_bind_eq_ok withPackage
  obtain ⟨site, -, withSite⟩ := Except.of_bind_eq_ok withSubject
  obtain ⟨function, -, withTarget⟩ := Except.of_bind_eq_ok withSite
  obtain ⟨⟨plan, imports⟩, -, finish⟩ := Except.of_bind_eq_ok withTarget
  cases finish
  -- The package that is loaded is the one the test is planned for.
  have apart : ∀ other, loadPackage (tree.workspace none) location.path = .ok other →
      other.ref.path ≠ PackageRef.testing.path := by
    intro other same
    obtain rfl := Except.ok.inj (loaded.symm.trans same)
    rw [← (openSubject_eq_ok opened).1]
    exact outside
  obtain ⟨complete, clause⟩ := (prepares_plannedAt apart).made _ located
  rw [addTest_eq_plannedAt, located]
  exact exists_writeTest complete clause setting imports

end Scaffold
