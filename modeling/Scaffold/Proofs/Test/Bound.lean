import Scaffold.Proofs.Test.Merged
import Scaffold.Proofs.Test.Planned

/-! The names that imports bind: each qualifier of a test is bound by one import of its file. -/

namespace Scaffold

open Go

namespace Import

/-- The name that stands for an imported package: the written one, or the one it declares. -/
def boundName (declared : String → String) (needed : Import) : String :=
  needed.name.getD (declared needed.path)

/-- Whether an import binds no name. -/
def isBlank (needed : Import) : Bool :=
  needed.name == some "_"

/-- Whether an import binds a name. -/
def binds (declared : String → String) (name : String) (needed : Import) : Bool :=
  !needed.isBlank && needed.boundName declared == name

end Import

/-- No two imports that bind names have a path or a name in common. -/
def BindApart (declared : String → String) (imports : List Import) : Prop :=
  (imports.filter fun needed => !needed.isBlank).Pairwise fun one other =>
    one.path ≠ other.path ∧ one.boundName declared ≠ other.boundName declared

/-- Noted names stand for their packages: the written ones do so by themselves. -/
def StandFor (declared : String → String) (names : ImportSet) : Prop :=
  ∀ entry ∈ names,
    if entry.2.renamed = true then entry.2.name ≠ "_" else entry.2.name = declared entry.1

section Apart

variable {declared : String → String} {imports others : List Import} {bound : Import}

theorem BindApart.perm (apart : BindApart declared imports) (perm : imports.Perm others) :
    BindApart declared others := by
  refine (perm.filter _).pairwise_iff (fun differ => ?_) |>.mp apart
  exact ⟨differ.1.symm, differ.2.symm⟩

/-- Where imports bind apart, a name is bound by no other import than one that binds it. -/
theorem BindApart.filter_binds (apart : BindApart declared imports) (member : bound ∈ imports)
    (filled : bound.isBlank = false) :
    imports.filter (Import.binds declared (bound.boundName declared)) = [bound] := by
  have split : imports.filter (Import.binds declared (bound.boundName declared)) =
      (imports.filter fun needed => !needed.isBlank).filter fun needed =>
        needed.boundName declared == bound.boundName declared := by
    rw [List.filter_filter]
    exact List.filter_congr fun needed _ => Bool.and_comm _ _
  rw [split]
  have named : bound ∈ imports.filter fun needed => !needed.isBlank :=
    List.mem_filter.mpr ⟨member, by rw [filled]; rfl⟩
  rw [BindApart] at apart
  generalize imports.filter (fun needed => !needed.isBlank) = rest at apart named
  -- Every import in front of the one that binds the name and every one behind binds another.
  induction rest with
  | nil => cases named
  | cons first rest ih =>
    obtain ⟨differ, later⟩ := List.pairwise_cons.mp apart
    rcases List.mem_cons.mp named with rfl | behind
    · have none : rest.filter (fun needed => needed.boundName declared == bound.boundName declared) =
          [] := by
        rw [List.filter_eq_nil_iff]
        intro needed held
        simpa using (differ needed held).2.symm
      rw [List.filter_cons_of_pos (by simp), none]
    · rw [List.filter_cons_of_neg (by simpa using (differ bound behind).2)]
      exact ih later behind

end Apart

section Collected

variable {known : List (String × String)} {file : FilePath} {names result : ImportSet}
  {specs : List ImportSpec} {spec : ImportSpec}

/-- An entry is the one that was set, or was there before. -/
theorem mem_insertKeyed {α : Type} {key : String} {value : α} {entries : List (String × α)}
    {entry : String × α} (member : entry ∈ insertKeyed key value entries) :
    entry = (key, value) ∨ entry ∈ entries := by
  induction entries with
  | nil => exact .inl (List.mem_singleton.mp member)
  | cons first rest ih =>
    obtain ⟨other, held⟩ := first
    rw [insertKeyed] at member
    split at member
    · exact (List.mem_cons.mp member).imp_right (List.mem_cons_of_mem _)
    · split at member
      · exact List.mem_cons.mp member
      · rcases List.mem_cons.mp member with rfl | behind
        · exact .inr List.mem_cons_self
        · exact (ih behind).imp_right (List.mem_cons_of_mem _)

/-- The steps by which the names of imports are collected. -/
theorem collectNames_cons (success : collectNames known file names (spec :: specs) = .ok result) :
    (spec.isBlank = true ∧ collectNames known file names specs = .ok result) ∨
      spec.isBlank = false ∧ collectNames known file
        (insertKeyed spec.path (localName known spec) names) specs = .ok result := by
  rw [collectNames] at success
  split at success
  · cases success
  · split at success
    · exact .inl ⟨‹_›, success⟩
    · exact .inr ⟨Bool.eq_false_iff.mpr ‹_›, success⟩

/-- A collected name is that of an import. -/
theorem mem_of_collectNames (success : collectNames known file names specs = .ok result)
    {entry : String × LocalName} (member : entry ∈ result) : entry ∈ names ∨
      ∃ spec ∈ specs, spec.isBlank = false ∧ entry = (spec.path, localName known spec) := by
  induction specs generalizing names with
  | nil =>
    cases success
    exact .inl member
  | cons spec specs ih =>
    rcases collectNames_cons success with ⟨-, success⟩ | ⟨filled, success⟩
    · rcases ih success with old | ⟨other, held, found⟩
      · exact .inl old
      · exact .inr ⟨other, List.mem_cons_of_mem _ held, found⟩
    · rcases ih success with old | ⟨other, held, found⟩
      · rcases mem_insertKeyed old with rfl | old
        · exact .inr ⟨spec, List.mem_cons_self, filled, rfl⟩
        · exact .inl old
      · exact .inr ⟨other, List.mem_cons_of_mem _ held, found⟩

/-- Imports of other paths have no part in the name of a path. -/
theorem lookup_collectNames_of_ne (success : collectNames known file names specs = .ok result)
    {path : String} (differ : ∀ spec ∈ specs, spec.isBlank = false → spec.path ≠ path) :
    result.lookup path = names.lookup path := by
  induction specs generalizing names with
  | nil =>
    cases success
    rfl
  | cons spec specs ih =>
    have later := fun other held => differ other (List.mem_cons_of_mem spec held)
    rcases collectNames_cons success with ⟨-, success⟩ | ⟨filled, success⟩
    · exact ih success later
    · rw [ih success later, lookup_insertKeyed_of_ne]
      exact (differ spec List.mem_cons_self filled).symm

/-- Of imports of different paths, each one's name is collected. -/
theorem lookup_collectNames (success : collectNames known file names specs = .ok result)
    (apart : (specs.filter fun spec => !spec.isBlank).Pairwise fun one other => one.path ≠ other.path)
    (member : spec ∈ specs) (filled : spec.isBlank = false) :
    result.lookup spec.path = some (localName known spec) := by
  induction specs generalizing names with
  | nil => cases member
  | cons first specs ih =>
    rcases collectNames_cons success with ⟨blank, success⟩ | ⟨named, success⟩
    · rw [List.filter_cons_of_neg (by simp [blank])] at apart
      rcases List.mem_cons.mp member with rfl | behind
      · simp [filled] at blank
      · exact ih success apart behind
    · rw [List.filter_cons_of_pos (by simp [named]), List.pairwise_cons] at apart
      rcases List.mem_cons.mp member with rfl | behind
      · rw [lookup_collectNames_of_ne success, lookup_insertKeyed]
        intro other held otherFilled
        exact (apart.1 other (List.mem_filter.mpr ⟨held, by simp [otherFilled]⟩)).symm
      · exact ih success apart.2 behind

/-- The collected names stand for their packages if those without a name of their own do. -/
theorem standFor_of_collectNames {declared : String → String}
    (success : collectNames known file [] specs = .ok result)
    (guessed : ∀ spec ∈ specs, spec.name = none →
      FileScope.declaredName known spec.path = declared spec.path) : StandFor declared result := by
  intro entry member
  rcases mem_of_collectNames success member with none | ⟨spec, held, filled, rfl⟩
  · cases none
  cases named : spec.name with
  | none =>
    simp only [localName, named]
    exact guessed spec held named
  | some name =>
    simp only [localName, named]
    rintro rfl
    simp [ImportSpec.isBlank, named] at filled

end Collected

section Noted

variable {declared : String → String} {view : Viewpoint} {extra : ImportSet}

/-- A name with a number behind it is not the blank one. -/
theorem numbered_ne_blank (base : String) (number : Nat) : base ++ toString number ≠ "_" := by
  intro blank
  -- The number would have to be the whole name, but has digits only.
  have whole := congrArg String.toList blank
  rw [String.toList_append] at whole
  have held : ∀ c ∈ (toString number).toList, c = '_' := fun c member => by
    have within : c ∈ base.toList ++ (toString number).toList := List.mem_append_right _ member
    rw [whole] at within
    exact List.mem_singleton.mp within
  obtain ⟨c, member⟩ := List.exists_mem_of_ne_nil (toString number).toList fun none =>
    toString_number_ne_empty number (String.toList_inj.mp none)
  have digit := isDigit_of_mem_toString member
  rw [held c member] at digit
  exact absurd digit (by decide)

/-- One more request notes a name that stands for the package asked for. -/
theorem StandFor.noting (noted : StandFor declared extra)
    (preferred : StandFor declared view.fileImports) {package : PackageRef}
    (named : package.name = declared package.path) :
    StandFor declared (view.noting extra package) := by
  rw [Viewpoint.noting]
  split
  · exact noted
  · intro entry member
    rcases mem_insertKeyed member with rfl | old
    · have names := view.chooseName_names extra package
      generalize view.chooseName extra package = chosen at names
      cases names with
      | preferred free =>
        rw [Viewpoint.preferredName]
        cases held : view.fileImports.lookup package.path with
        | none => exact named
        | some known => exact preferred _ (mem_of_lookup held)
      | numbered number => exact numbered_ne_blank _ number
    · exact noted entry old

theorem StandFor.foldl (packages : List PackageRef) (noted : StandFor declared extra)
    (preferred : StandFor declared view.fileImports)
    (named : ∀ package ∈ packages, package.name = declared package.path) :
    StandFor declared (packages.foldl view.noting extra) := by
  induction packages generalizing extra with
  | nil => exact noted
  | cons package packages ih =>
    exact ih (noted.noting preferred (named package List.mem_cons_self))
      fun other held => named other (List.mem_cons_of_mem _ held)

end Noted

/-- The names of imports without one of their own are guessed as their packages declare them. -/
def IsGuessed (declared : String → String) (known : List (String × String))
    (specs : List ImportSpec) : Prop :=
  ∀ spec ∈ specs, spec.name = none → FileScope.declaredName known spec.path = declared spec.path

section Merged

variable {declared : String → String} {known : List (String × String)} {file : FilePath}
  {setting : Option String} {text merged : String} {view : Viewpoint} {extra : ImportSet}

/-- The import that is added for a noted path binds the noted name. -/
theorem StandFor.of_needed (noted : StandFor declared extra) {needed : Import}
    (member : needed ∈ neededImports extra) : ∃ chosen, (needed.path, chosen) ∈ extra ∧
      needed.isBlank = false ∧ needed.boundName declared = chosen.name := by
  obtain ⟨⟨path, name, renamed⟩, held, rfl⟩ := List.mem_map.mp member
  have stands := noted _ held
  refine ⟨⟨name, renamed⟩, held, ?_⟩
  cases renamed with
  | true => exact ⟨by simpa [Import.isBlank] using stands, rfl⟩
  | false => exact ⟨rfl, stands.symm⟩

/-- Imports that are added bind apart, being noted for different paths. -/
theorem StandFor.needed_apart (noted : StandFor declared extra) (sound : view.Sound extra)
    {new : List Import} (distinct : new.Nodup) (within : ∀ needed ∈ new, needed ∈ neededImports extra) :
    new.Pairwise fun one other =>
      one.path ≠ other.path ∧ one.boundName declared ≠ other.boundName declared := by
  refine distinct.pairwise_of_forall_ne fun one held other held' differ => ?_
  obtain ⟨entry, member, rfl⟩ := List.mem_map.mp (within one held)
  obtain ⟨entry', member', rfl⟩ := List.mem_map.mp (within other held')
  have paths : entry.1 ≠ entry'.1 := by
    intro same
    have value := lookup_of_mem sound.ordered (show (entry.1, entry.2) ∈ extra from member)
    rw [same, lookup_of_mem sound.ordered (show (entry'.1, entry'.2) ∈ extra from member')] at value
    exact differ (by rw [Prod.ext same (Option.some.inj value).symm])
  refine ⟨paths, ?_⟩
  obtain ⟨chosen, noted', -, name⟩ := noted.of_needed (within _ held)
  obtain ⟨chosen', noted'', -, name'⟩ := noted.of_needed (within _ held')
  rw [name, name']
  exact (sound.apart _ noted' _ (List.mem_append_right _ noted'') paths.symm).symm

/-- An import of the file binds the name that is collected for it. -/
theorem boundName_value {specs : List ImportSpec} (guessed : IsGuessed declared known specs)
    {spec : ImportSpec} (held : spec ∈ specs) :
    spec.value.boundName declared = (localName known spec).name := by
  rw [Import.boundName]
  cases named : spec.name with
  | none => simp [ImportSpec.value, localName, named, guessed spec held named]
  | some name => simp [ImportSpec.value, localName, named]

/-- Imports bind apart in a file that gains those that were noted. -/
theorem BindApart.of_mergesTo (apart : BindApart declared (importsOf text))
    (sound : view.Sound extra) (noted : StandFor declared extra)
    (guessed : IsGuessed declared known (importsFile text).imports)
    (collected : collectNames known file [] (importsFile text).imports = .ok view.testImports)
    (merges : MergesTo setting text (neededImports extra) merged) :
    BindApart declared (importsOf merged) := by
  obtain ⟨new, distinct, gained, perm⟩ := merges.gained
  refine BindApart.perm ?_ perm.symm
  have within : ∀ needed ∈ new, needed ∈ neededImports extra :=
    fun needed member => ((gained needed).mp member).1
  rw [BindApart, List.filter_append, List.pairwise_append]
  refine ⟨apart, (noted.needed_apart sound distinct within).sublist List.filter_sublist, ?_⟩
  intro one held needed added
  obtain ⟨held, filled⟩ := List.mem_filter.mp held
  obtain ⟨spec, inside, rfl⟩ := List.mem_map.mp held
  obtain ⟨chosen, member, -, name⟩ := noted.of_needed (within needed (List.mem_filter.mp added).1)
  -- The file's name for the old path was collected, and is none of the noted names.
  have paths : ((importsFile text).imports.filter fun spec => !spec.isBlank).Pairwise
      fun one other => one.path ≠ other.path := by
    rw [BindApart, importsOf, List.filter_map, List.pairwise_map] at apart
    exact apart.imp And.left
  have known' := lookup_collectNames collected paths inside ((Bool.not_eq_true' _).mp filled)
  have differ : spec.path ≠ needed.path := by
    intro same
    have unsettled := sound.unsettled _ member
    rw [← same, Viewpoint.isSettled, known'] at unsettled
    simp at unsettled
  refine ⟨differ, ?_⟩
  rw [boundName_value guessed inside, name]
  exact sound.apart _ member _ (List.mem_append_left _ (mem_of_lookup known')) differ

/-- A path that is asked for is bound to its qualifier by an import of the file with the gain. -/
theorem exists_bound {packages : List PackageRef} (requested : extra = packages.foldl view.noting [])
    (sound : view.Sound extra) (noted : StandFor declared extra)
    (guessed : IsGuessed declared known (importsFile text).imports)
    (collected : collectNames known file [] (importsFile text).imports = .ok view.testImports)
    (merges : MergesTo setting text (neededImports extra) merged) {package : PackageRef}
    (asked : package ∈ packages) (outside : view.isWithin package.path = false) :
    ∃ bound ∈ importsOf merged, bound.path = package.path ∧ bound.isBlank = false ∧
      bound.boundName declared = view.qualifierOf extra package.path := by
  obtain ⟨new, -, gained, perm⟩ := merges.gained
  have present : ∀ needed, needed ∈ importsOf text ∨ needed ∈ neededImports extra →
      needed ∈ importsOf merged := by
    intro needed either
    rw [perm.mem_iff, List.mem_append, gained]
    by_cases there : needed ∈ importsOf text
    · exact .inl there
    · exact .inr ⟨either.resolve_left there, there⟩
  cases held : view.testImports.lookup package.path with
  | some known' =>
    rcases mem_of_collectNames collected (mem_of_lookup held) with none | ⟨spec, inside, filled, same⟩
    · cases none
    · obtain ⟨path, rfl⟩ := Prod.mk.inj same
      refine ⟨spec.value, present _ (.inl (List.mem_map.mpr ⟨spec, inside, rfl⟩)), path.symm, filled, ?_⟩
      rw [boundName_value guessed inside, Viewpoint.qualifierOf, outside, held]
      rfl
  | none =>
    have unsettled : view.isSettled package.path = false := by
      rw [Viewpoint.isSettled, outside, held]
      rfl
    obtain ⟨chosen, member⟩ := (view.exists_mem_foldl_noting packages [] package.path).mpr
      (.inr ⟨⟨package, asked, rfl⟩, unsettled⟩)
    rw [← requested] at member
    have needed := List.mem_map_of_mem (f := fun entry : String × LocalName =>
      (⟨entry.1, if entry.2.renamed then some entry.2.name else none⟩ : Import)) member
    obtain ⟨chosen', member', filled, name⟩ := noted.of_needed needed
    refine ⟨_, present _ (.inr needed), rfl, filled, ?_⟩
    rw [name, sound.qualifierOf member']

end Merged

section Added

variable {tree : FileTree} {setting : Option String} {location : Location} {subject : Subject}
  {site : TestSite} {function : Function} {imports : List Import} {test : String}

/-- A function has one draft, and one set of imports is noted for it. -/
theorem IsDrafted.unique {draft draft' : PlanDraft} {extra extra' : ImportSet}
    (drafted : IsDrafted subject site function draft extra)
    (drafted' : IsDrafted subject site function draft' extra') : draft = draft' ∧ extra = extra' := by
  obtain ⟨name, choice, named, chosen, rfl⟩ := drafted.drafted
  obtain ⟨name', choice', named', chosen', rfl⟩ := drafted'.drafted
  obtain rfl := Except.ok.inj (named.symm.trans named')
  obtain rfl := Except.ok.inj (chosen.symm.trans chosen')
  exact ⟨rfl, drafted.noted.trans drafted'.noted.symm⟩

/-- The names in the file of a test are collected from the imports that are there before it. -/
theorem IsPlanned.collected (planned : IsPlanned tree setting location subject site imports test)
    (room : site.destination.HasRoomFor setting imports) : ∃ path,
      collectNames subject.package.metadata.deps path []
        (importsFile site.destination.head).imports = .ok site.imports := by
  have sited := planned.sited
  cases held : tree.read? (testFilePath location.path) with
  | none =>
    rw [held, siteOf] at sited
    cases sited
    have bare : (importsFile (newFileHeader subject.file subject.package.name)).imports = [] := by
      rw [SourceFile.imports, IsHead.bare room]
      rfl
    exact ⟨⟨""⟩, by rw [Destination.head, bare]; rfl⟩
  | some text =>
    rw [held] at sited
    obtain ⟨package, -, sited⟩ := Except.of_bind_eq_ok sited
    obtain ⟨names, collected, sited⟩ := Except.of_bind_eq_ok sited
    cases sited
    -- Where a file stands makes no difference to its imports.
    have same : (importsFile text).imports =
        (SourceFile.ofText (testFilePath location.path) text).imports := by
      rw [importsFile, SourceFile.imports, SourceFile.imports, importDecls_ofText,
        importDecls_ofText]
    refine ⟨testFilePath location.path, Eq.trans ?_ collected⟩
    rw [fileImports, ← same]
    rfl

/-- The names in the tested file are collected from its imports. -/
theorem IsPlanned.collected_subject
    (planned : IsPlanned tree setting location subject site imports test) : ∃ path,
      collectNames subject.package.metadata.deps path [] subject.file.imports =
        .ok subject.imports := by
  obtain ⟨package, -, opened⟩ := planned.opened
  obtain ⟨⟨⟩, -, opened⟩ := Except.of_bind_eq_ok opened
  split at opened
  · cases opened
  · obtain ⟨names, collected, opened⟩ := Except.of_bind_eq_ok opened
    cases opened
    exact ⟨_, collected⟩

/--
Each qualifier in a test is bound by exactly one import of its file, which is of the right package.

This takes that the names of imports without one of their own are guessed as they are declared.
-/
theorem qualifiers_bound {declared : String → String} {draft : PlanDraft} {extra : ImportSet}
    (planned : IsPlanned tree setting location subject site imports test)
    (target : targetOf subject location.range = .ok function)
    (drafted : IsDrafted subject site function draft extra)
    (named : ∀ package ∈ draft.asked, package.name = declared package.path)
    (guessed : IsGuessed declared subject.package.metadata.deps
      (subject.file.imports ++ (importsFile site.destination.head).imports))
    (apart : BindApart declared (importsOf site.destination.head))
    (sound : ∀ needed ∈ imports, needed.IsSound)
    (room : site.destination.HasRoomFor setting imports) :
    ∃ changes base, addTest (tree.workspace setting) location = .ok changes ∧
      preview (tree.workspace setting) changes =
        .ok ⟨[(testFilePath location.path, base ++ test)]⟩ ∧
      (draft.separated.written ((viewpointOf subject site).qualifiersIn extra)).render = .ok test ∧
      ∀ package ∈ draft.asked, (viewpointOf subject site).isWithin package.path = false →
        ∃ bound, (importsOf base).filter (Import.binds declared
          ((viewpointOf subject site).qualifiersIn extra package)) = [bound] ∧
            bound.path = package.path := by
  obtain ⟨function', plan, target', made, rendered⟩ := planned.written
  obtain rfl := Except.ok.inj (target.symm.trans target')
  obtain ⟨draft', extra', drafted', rfl, rfl⟩ := planTest_eq_ok made
  obtain ⟨rfl, rfl⟩ := drafted.unique drafted'
  have known := drafted.sound
  -- The imports to be added are in the order of their paths.
  have ordered : (neededImports extra).Pairwise fun one other => one.path < other.path :=
    List.pairwise_map.mpr known.ordered
  obtain ⟨changes, base, added, previewed, merges⟩ := addTest_merges planned sound ordered room
  refine ⟨changes, base, added, previewed, rendered, fun package asked outside => ?_⟩
  obtain ⟨path, collected⟩ := planned.collected room
  obtain ⟨path', collected'⟩ := planned.collected_subject
  have noted : StandFor declared extra := by
    rw [drafted.noted]
    refine StandFor.foldl draft.asked (by simp [StandFor]) ?_ named
    exact standFor_of_collectNames collected' fun spec held => guessed spec (List.mem_append_left _ held)
  have guessed' : IsGuessed declared subject.package.metadata.deps
      (importsFile site.destination.head).imports :=
    fun spec held => guessed spec (List.mem_append_right _ held)
  obtain ⟨bound, member, same, filled, name⟩ :=
    exists_bound drafted.noted known noted guessed' collected merges asked outside
  have all := apart.of_mergesTo known noted guessed' collected merges
  refine ⟨bound, ?_, same⟩
  rw [Viewpoint.qualifiersIn, ← name]
  exact all.filter_binds member filled

end Added

/-- What the packages of a small module and its tests declare. -/
def smallNames (path : String) : String :=
  if path = "m" then "p" else "testing"

theorem qualifiers_bound_oneFunction : ∃ changes base test,
    addTest (oneFunction.workspace none) thatFunction = .ok changes ∧
    preview (oneFunction.workspace none) changes = .ok ⟨[(⟨"p_test.go"⟩, base ++ test)]⟩ ∧
    ∃ bound, (importsOf base).filter (Import.binds smallNames "p") = [bound] ∧
      bound.path = "m" := by
  obtain ⟨found, located, checked⟩ := exists_plannedAt oneFunction thatFunction
    (fun found => found.subject.package.ref == ⟨"m", "p"⟩ && found.subject.file.imports.isEmpty &&
      newFileHeader found.subject.file found.subject.package.name == "package p_test\n" &&
      found.imports == [⟨"m", none⟩, ⟨"testing", none⟩] && found.plan.package == "p" &&
      found.function.isBare "F" && found.plan.render.isOk)
    (by decide +kernel)
  simp only [Bool.and_eq_true, beq_iff_eq, List.isEmpty_iff] at checked
  obtain ⟨⟨⟨⟨⟨⟨ref, bare⟩, header⟩, needed⟩, qualifier⟩, plain⟩, complete⟩ := checked
  obtain ⟨test, rendered⟩ := Except.exists_of_isOk complete
  obtain ⟨planned, target⟩ := isPlanned_of_plannedAt located rendered
  obtain ⟨draft, extra, drafted, whole, -⟩ := planTest_eq_ok (planTest_of_plannedAt located)
  have site : found.site = ⟨.fresh ⟨"p_test.go"⟩ "package p_test\n", .external, []⟩ := by
    have absent : oneFunction.read? (testFilePath thatFunction.path) = none := by decide +kernel
    have beside : testFilePath thatFunction.path = ⟨"p_test.go"⟩ := by decide +kernel
    have sited := planned.sited
    rw [absent, siteOf, header, beside] at sited
    exact (Except.ok.inj sited).symm
  have head : IsHead "package p_test\n" := by
    have same : newFileHeader (.ofText ⟨""⟩ "") "p" = "package p_test\n" := by decide +kernel
    have external : isName "p".toList = true := by decide +kernel
    exact same ▸ isHead_newFileHeader external
  have empty : (importsFile found.site.destination.head).imports = [] := by
    rw [site, Destination.head, SourceFile.imports, head.bare]
    rfl
  obtain ⟨subject, -, -, asked⟩ := drafted.of_bare plain
  rw [ref] at subject asked
  have named : ∀ package ∈ draft.asked, package.name = smallNames package.path := by
    rw [asked]
    decide
  have sound : ∀ one ∈ found.imports, one.IsSound := by
    rw [needed]
    intro one member
    rcases List.mem_pair.mp member with rfl | rfl
    · exact ⟨by unfold IsPlain; decide, by simp⟩
    · exact ⟨by unfold IsPlain; decide, by simp⟩
  obtain ⟨changes, base, added, previewed, -, bound⟩ := qualifiers_bound planned target drafted named
    (by rw [bare, empty]; simp [IsGuessed]) (by rw [importsOf, empty]; exact List.Pairwise.nil)
    sound (by rw [site]; exact head)
  have outside : (viewpointOf found.subject found.site).isWithin "m" = false := by
    rw [site]
    rfl
  have written : (viewpointOf found.subject found.site).qualifiersIn extra ⟨"m", "p"⟩ = "p" := by
    rw [whole] at qualifier
    rw [← subject]
    exact qualifier
  have beside : testFilePath thatFunction.path = ⟨"p_test.go"⟩ := by decide +kernel
  refine ⟨changes, base, test, added, beside ▸ previewed, ?_⟩
  have unique := bound ⟨"m", "p"⟩ (by rw [asked]; simp) outside
  rwa [written] at unique

/-- A module whose path does not end in the name of its package, with a function and a test file. -/
def dashedModule : FileTree :=
  ⟨[(⟨"go.mod"⟩, "module math-x"), (⟨"p.go"⟩, "package mathx\nfunc F() {}"),
    (⟨"p_test.go"⟩, "package mathx_test\nimport (\n\t\"math-x\"\n\t\"testing\"\n)")]⟩

/-- A qualifier that is guessed from a path is bound by no import of the file, and none is added. -/
theorem qualifier_unbound_dashed : ∃ found test,
    plannedAt dashedModule ⟨⟨"p.go"⟩, .point ⟨1, 6⟩⟩ = .ok found ∧ found.plan.render = .ok test ∧
    found.subject.package.ref = ⟨"math-x", "mathx"⟩ ∧ found.plan.package = "math" ∧
    importEdits none found.site.destination.head found.imports = .ok [] ∧
    ∀ declared : String → String, declared "math-x" = "mathx" → declared "testing" = "testing" →
      (importsOf found.site.destination.head).filter (Import.binds declared "math") = [] := by
  obtain ⟨found, located, checked⟩ := exists_plannedAt dashedModule ⟨⟨"p.go"⟩, .point ⟨1, 6⟩⟩
    (fun found => found.subject.package.ref == ⟨"math-x", "mathx"⟩ && found.plan.package == "math" &&
      found.imports.isEmpty && importsOf found.site.destination.head == [⟨"math-x", none⟩,
        ⟨"testing", none⟩] && found.plan.render.isOk)
    (by decide +kernel)
  simp only [Bool.and_eq_true, beq_iff_eq, List.isEmpty_iff] at checked
  obtain ⟨⟨⟨⟨ref, qualifier⟩, none⟩, held⟩, complete⟩ := checked
  obtain ⟨test, rendered⟩ := Except.exists_of_isOk complete
  refine ⟨found, test, located, rendered, ref, qualifier, importEdits_of_present (by simp [none]),
    fun declared known other => ?_⟩
  simp [held, Import.binds, Import.isBlank, Import.boundName, known, other]

end Scaffold
