import Scaffold.Proofs.Keyed
import Scaffold.Proofs.Numbering
import Scaffold.Test.Qualifier

/-! Qualifiers asked for in any order: one answer for each path, and fresh names for new imports. -/

namespace Scaffold

open Go

namespace Viewpoint

/-- The answers to some requests in turn, and the imports noted on the way. -/
def answers (view : Viewpoint) (packages : List PackageRef) : List String × ImportSet :=
  (packages.mapM view.qualify).run []

/-- Whether a path is that of the tested package, seen from within. -/
def isWithin (view : Viewpoint) (path : String) : Bool :=
  !view.external && path == view.subject.path

/-- Whether a path never needs a new import. -/
def isSettled (view : Viewpoint) (path : String) : Bool :=
  view.isWithin path || (view.testImports.lookup path).isSome

/-- The qualifier of a path once its import is known. -/
def qualifierOf (view : Viewpoint) (extra : ImportSet) (path : String) : String :=
  if view.isWithin path then ""
  else (((view.testImports.lookup path).or (extra.lookup path)).map LocalName.name).getD ""

/-- The imports noted after one more request. -/
def noting (view : Viewpoint) (extra : ImportSet) (package : PackageRef) : ImportSet :=
  if view.isSettled package.path || (extra.lookup package.path).isSome then extra
  else insertKeyed package.path (view.chooseName extra package) extra

/-- The name a package is imported under as long as nothing else has it. -/
def preferredName (view : Viewpoint) (package : PackageRef) : LocalName :=
  (view.fileImports.lookup package.path).getD ⟨package.name, false⟩

/-- What a new import is called: by the preferred name, or by the first free number behind it. -/
inductive Names (view : Viewpoint) (extra : ImportSet) (package : PackageRef) : LocalName → Prop
  | preferred (free : view.isTaken extra (view.preferredName package).name package.path = false) :
      Names view extra package (view.preferredName package)
  | numbered (number : Nat) (atLeast : 2 ≤ number)
      (clash : view.isTaken extra (view.preferredName package).name package.path = true)
      (free : view.isTaken extra ((view.preferredName package).name ++ toString number)
        package.path = false)
      (least : ∀ earlier, 2 ≤ earlier → earlier < number →
        view.isTaken extra ((view.preferredName package).name ++ toString earlier)
          package.path = true) :
      Names view extra package ⟨(view.preferredName package).name ++ toString number, true⟩

/-- A name is taken exactly when another path is bound to it. -/
theorem isTaken_iff (view : Viewpoint) (extra : ImportSet) (name path : String) :
    view.isTaken extra name path = true ↔
      ∃ entry ∈ view.testImports ++ extra, entry.1 ≠ path ∧ entry.2.name = name := by
  simp only [isTaken, Bool.or_eq_true, List.any_eq_true, Bool.and_eq_true, bne_iff_ne,
    beq_iff_eq, List.mem_append, or_and_right, exists_or]

/-- Behind every base there is a free number. -/
theorem freshName_numbered (view : Viewpoint) (extra : ImportSet) (base path : String) :
    ∃ number, 2 ≤ number ∧ view.freshName extra base path = base ++ toString number ∧
      view.isTaken extra (base ++ toString number) path = false ∧
      ∀ earlier, 2 ≤ earlier → earlier < number →
        view.isTaken extra (base ++ toString earlier) path = true := by
  -- An entry stands in the way of the one number that its own name ends in.
  have found : (leastPassing (fun number => !view.isTaken extra (base ++ toString number) path)
      ((view.testImports ++ extra).length + 1) 2).isSome := leastPassing_isSome
    (fun entry number => entry.2.name = base ++ toString number)
    (by
      intro number fails
      simp only [Bool.not_eq_false', isTaken_iff] at fails
      obtain ⟨entry, member, -, named⟩ := fails
      exact ⟨entry, member, named⟩)
    (fun entry first second one other => numbered_inj (one.symm.trans other))
  obtain ⟨number, result⟩ := Option.isSome_iff_exists.mp found
  rw [List.length_append] at result
  obtain ⟨passes, low, -, before⟩ := leastPassing_eq_some result
  refine ⟨number, low, by rw [freshName, result], by simpa using passes, ?_⟩
  intro earlier lower upper
  simpa using before earlier lower upper

/-- The name chosen for a new import is the preferred one, or numbered if that is taken. -/
theorem chooseName_names (view : Viewpoint) (extra : ImportSet) (package : PackageRef) :
    view.Names extra package (view.chooseName extra package) := by
  have unfolded : view.chooseName extra package =
      if view.isTaken extra (view.preferredName package).name package.path then
        ⟨view.freshName extra (view.preferredName package).name package.path, true⟩
      else view.preferredName package := rfl
  rw [unfolded]
  split
  · rename_i clash
    obtain ⟨number, atLeast, named, free, least⟩ :=
      view.freshName_numbered extra (view.preferredName package).name package.path
    rw [named]
    exact .numbered number atLeast clash free least
  · rename_i free
    exact .preferred (by simpa using free)

/-- Either way, no other path is bound to the name of a new import. -/
theorem Names.isFree {view : Viewpoint} {extra : ImportSet} {package : PackageRef}
    {noted : LocalName} (named : view.Names extra package noted) :
    view.isTaken extra noted.name package.path = false := by
  cases named with
  | preferred free => exact free
  | numbered _ _ _ free _ => exact free

/-- One request notes what it needs and answers by what is noted then. -/
theorem qualify_run (view : Viewpoint) (extra : ImportSet) (package : PackageRef) :
    (view.qualify package).run extra =
      (view.qualifierOf (view.noting extra package) package.path, view.noting extra package) := by
  -- The cases are those of the lookup: the package itself, a known import, or a new one.
  by_cases within : view.isWithin package.path = true
  · have inside : (!view.external && package.path == view.subject.path) = true := within
    simp only [qualify, inside, if_true, noting, isSettled, qualifierOf, within, Bool.true_or]
    rfl
  · have outside : (!view.external && package.path == view.subject.path) = false := by
      simpa [isWithin] using within
    simp only [Bool.not_eq_true] at within
    cases known : view.testImports.lookup package.path with
    | some found =>
      simp only [qualify, outside, known, noting, isSettled, qualifierOf, within]
      rfl
    | none =>
      cases noted : extra.lookup package.path with
      | some found =>
        have kept : view.noting extra package = extra := by
          simp [noting, noted]
        simp only [kept, qualifierOf, within, known, noted, qualify, outside]
        simp [noted]
        rfl
      | none =>
        have added : view.noting extra package =
            insertKeyed package.path (view.chooseName extra package) extra := by
          simp [noting, isSettled, within, known, noted]
        simp only [added, qualifierOf, within, known, lookup_insertKeyed, qualify, outside]
        simp [noted]
        rfl

/-- What was noted once stays noted under the same name. -/
theorem lookup_noting (view : Viewpoint) {extra : ImportSet} {path : String} {held : LocalName}
    (found : extra.lookup path = some held) (package : PackageRef) :
    (view.noting extra package).lookup path = some held := by
  unfold noting
  split
  · exact found
  · rename_i new
    -- Only a path without a name is added.
    have differs : path ≠ package.path := by
      rintro rfl
      simp [found] at new
    rw [lookup_insertKeyed_of_ne _ _ differs, found]

/-- Later requests change no name that was noted before. -/
theorem lookup_foldl_noting (view : Viewpoint) (packages : List PackageRef) {extra : ImportSet}
    {path : String} {held : LocalName} (found : extra.lookup path = some held) :
    (packages.foldl view.noting extra).lookup path = some held := by
  induction packages generalizing extra with
  | nil => exact found
  | cons package rest ih => exact ih (view.lookup_noting found package)

/-- A request for a path that needs an import leaves it noted. -/
theorem lookup_noting_self (view : Viewpoint) (extra : ImportSet) {package : PackageRef}
    (unsettled : view.isSettled package.path = false) :
    (view.noting extra package).lookup package.path =
      some ((extra.lookup package.path).getD (view.chooseName extra package)) := by
  cases held : extra.lookup package.path with
  | some known => exact view.lookup_noting held package
  | none => simp [noting, unsettled, held, lookup_insertKeyed]

/-- The qualifier given for a package does not change with later requests. -/
theorem qualifierOf_foldl (view : Viewpoint) (extra : ImportSet) (package : PackageRef)
    (later : List PackageRef) :
    view.qualifierOf (later.foldl view.noting (view.noting extra package)) package.path =
      view.qualifierOf (view.noting extra package) package.path := by
  -- A settled path does not look at what is noted, any other has been noted by now.
  cases settled : view.isSettled package.path with
  | true =>
    rcases Bool.or_eq_true_iff.mp settled with within | known
    · simp [qualifierOf, within]
    · obtain ⟨found, known⟩ := Option.isSome_iff_exists.mp known
      simp [qualifierOf, known]
  | false =>
    have held := view.lookup_noting_self extra settled
    have kept := view.lookup_foldl_noting later held
    simp only [qualifierOf, held, kept]

/-- Requests are answered by what is noted in the end, whatever was noted when they were made. -/
theorem mapM_qualify_run (view : Viewpoint) (packages : List PackageRef) (extra : ImportSet) :
    (packages.mapM view.qualify).run extra =
      (packages.map fun package =>
        view.qualifierOf (packages.foldl view.noting extra) package.path,
      packages.foldl view.noting extra) := by
  induction packages generalizing extra with
  | nil => rfl
  | cons package rest ih =>
    have first := view.qualify_run extra package
    have others := ih (view.noting extra package)
    rw [List.map_cons, List.foldl_cons, view.qualifierOf_foldl extra package rest]
    rw [List.mapM_cons, StateT.run_bind, first]
    change ((rest.mapM view.qualify) >>= fun answers => pure (_ :: answers)).run
      (view.noting extra package) = _
    rw [StateT.run_bind, others]
    rfl

/-- What holds of the noted imports after any requests. -/
structure Sound (view : Viewpoint) (extra : ImportSet) : Prop where
  ordered : InKeyOrder extra
  unsettled : ∀ entry ∈ extra, view.isSettled entry.1 = false
  apart : ∀ entry ∈ extra, ∀ other ∈ view.testImports ++ extra,
    other.1 ≠ entry.1 → other.2.name ≠ entry.2.name

/-- One more request keeps the noted imports sound. -/
theorem Sound.noting {view : Viewpoint} {extra : ImportSet} (sound : view.Sound extra)
    (package : PackageRef) : view.Sound (view.noting extra package) := by
  unfold Viewpoint.noting
  split
  · exact sound
  · rename_i new
    simp only [Bool.or_eq_true, not_or, Bool.not_eq_true, Option.isSome_eq_false_iff,
      Option.isNone_iff_eq_none] at new
    obtain ⟨unsettled, unknown⟩ := new
    have free := (view.chooseName_names extra package).isFree
    -- The new name is bound to no other path, whether that was noted earlier or stands in the file.
    have clear : ∀ other ∈ view.testImports ++ extra, other.1 ≠ package.path →
        other.2.name ≠ (view.chooseName extra package).name := by
      intro other member differs same
      have taken := (view.isTaken_iff extra _ package.path).mpr ⟨other, member, differs, same⟩
      simp [free] at taken
    refine ⟨inKeyOrder_insertKeyed _ _ sound.ordered, ?_, ?_⟩
    · intro entry member
      rcases (mem_insertKeyed_of_new unknown).mp member with rfl | old
      · exact unsettled
      · exact sound.unsettled entry old
    · intro entry member other otherMember differs
      have otherCases : other = (package.path, view.chooseName extra package) ∨
          other ∈ view.testImports ++ extra := by
        rcases List.mem_append.mp otherMember with standing | noted
        · exact .inr (List.mem_append_left _ standing)
        · exact ((mem_insertKeyed_of_new unknown).mp noted).imp_right (List.mem_append_right _)
      rcases (mem_insertKeyed_of_new unknown).mp member with rfl | old
      · rcases otherCases with rfl | otherOld
        · exact absurd rfl differs
        · exact clear other otherOld differs
      · rcases otherCases with rfl | otherOld
        · exact (clear entry (List.mem_append_right _ old) differs.symm).symm
        · exact sound.apart entry old other otherOld differs

/-- Any number of requests keep the noted imports sound. -/
theorem Sound.foldl {view : Viewpoint} (packages : List PackageRef) {extra : ImportSet}
    (sound : view.Sound extra) : view.Sound (packages.foldl view.noting extra) := by
  induction packages generalizing extra with
  | nil => exact sound
  | cons package rest ih => exact ih (sound.noting package)

/-- A noted package is known by the name noted for it. -/
theorem Sound.qualifierOf {view : Viewpoint} {extra : ImportSet}
    (sound : view.Sound extra) {path : String} {chosen : LocalName}
    (noted : (path, chosen) ∈ extra) : view.qualifierOf extra path = chosen.name := by
  have unsettled := sound.unsettled _ noted
  simp only [isSettled, Bool.or_eq_false_iff, Option.isSome_eq_false_iff,
    Option.isNone_iff_eq_none] at unsettled
  simp [Viewpoint.qualifierOf, unsettled.1, unsettled.2, lookup_of_mem sound.ordered noted]

/-- A path is noted exactly when it was before, or is asked for and needs an import. -/
theorem exists_mem_noting (view : Viewpoint) (extra : ImportSet) (package : PackageRef)
    (path : String) :
    (∃ held, (path, held) ∈ view.noting extra package) ↔
      (∃ held, (path, held) ∈ extra) ∨ package.path = path ∧ view.isSettled path = false := by
  unfold noting
  split
  · rename_i old
    constructor
    · exact .inl
    · rintro (held | ⟨rfl, unsettled⟩)
      · exact held
      · simp only [unsettled, Bool.false_or] at old
        obtain ⟨held, found⟩ := Option.isSome_iff_exists.mp old
        exact ⟨held, mem_of_lookup found⟩
  · rename_i new
    simp only [Bool.or_eq_true, not_or, Bool.not_eq_true, Option.isSome_eq_false_iff,
      Option.isNone_iff_eq_none] at new
    obtain ⟨unsettled, unknown⟩ := new
    simp only [mem_insertKeyed_of_new unknown, Prod.mk.injEq]
    constructor
    · rintro ⟨held, ⟨rfl, -⟩ | old⟩
      · exact .inr ⟨rfl, unsettled⟩
      · exact .inl ⟨held, old⟩
    · rintro (⟨held, old⟩ | ⟨rfl, -⟩)
      · exact ⟨held, .inr old⟩
      · exact ⟨_, .inl ⟨rfl, rfl⟩⟩

/-- After any requests, the noted paths are the earlier ones and those that need an import. -/
theorem exists_mem_foldl_noting (view : Viewpoint) (packages : List PackageRef)
    (extra : ImportSet) (path : String) :
    (∃ held, (path, held) ∈ packages.foldl view.noting extra) ↔
      (∃ held, (path, held) ∈ extra) ∨
        (∃ package ∈ packages, package.path = path) ∧ view.isSettled path = false := by
  induction packages generalizing extra with
  | nil => simp
  | cons package rest ih =>
    rw [List.foldl_cons, ih, exists_mem_noting, or_assoc, ← or_and_right]
    simp only [List.exists_mem_cons_iff]

/-- A path needs an import unless it is imported already or is that of the package itself. -/
theorem isSettled_eq_false_iff (view : Viewpoint) (path : String) :
    view.isSettled path = false ↔
      view.testImports.lookup path = none ∧
        ¬(view.external = false ∧ path = view.subject.path) := by
  simp only [isSettled, isWithin, Bool.or_eq_false_iff, Option.isSome_eq_false_iff,
    Option.isNone_iff_eq_none, Bool.and_eq_false_iff, Bool.not_eq_false', beq_eq_false_iff_ne]
  rw [and_comm, not_and_or, Bool.not_eq_false]

/-- How the answers to requests and the imports noted meanwhile fit together. -/
structure Consistent (view : Viewpoint) (packages : List PackageRef) (names : List String)
    (extra : ImportSet) : Prop where
  /-- Every request is answered, and all requests for one path alike. -/
  alike : names.length = packages.length ∧ ∀ (i j : Nat) (first second : PackageRef),
    packages[i]? = some first → packages[j]? = some second → first.path = second.path → names[i]? = names[j]?
  /-- From within, the package itself needs no qualifier and no import. -/
  within : view.external = false → (∀ (i : Nat) (package : PackageRef),
    packages[i]? = some package → package.path = view.subject.path → names[i]? = some "") ∧
      ∀ held, (view.subject.path, held) ∉ extra
  /-- A noted package is answered by the name noted for it. -/
  named : ∀ (i : Nat) (package : PackageRef) held, packages[i]? = some package →
    (package.path, held) ∈ extra → names[i]? = some held.name
  /-- Noted are the paths asked for that need an import. -/
  noted : ∀ path, (∃ held, (path, held) ∈ extra) ↔ (∃ package ∈ packages, package.path = path) ∧
    view.testImports.lookup path = none ∧ ¬(view.external = false ∧ path = view.subject.path)
  /-- No two paths share a name, neither among the noted ones nor with those in the file. -/
  apart : ∀ entry ∈ extra, ∀ other ∈ view.testImports ++ extra,
    other.1 ≠ entry.1 → other.2.name ≠ entry.2.name
  /-- The first request for a path settles its name, by what had been noted until then. -/
  chosen : ∀ earlier package later held, packages = earlier ++ package :: later →
    (∀ other ∈ earlier, other.path ≠ package.path) → (package.path, held) ∈ extra →
      view.Names (view.answers earlier).2 package held
  /-- One import is added for each noted path, in ascending order. -/
  ascending : (neededImports extra).map Import.path = extra.map Prod.fst ∧
    (neededImports extra).Pairwise fun first second => first.path < second.path
  /-- An added import writes its name exactly if it is a new one for the package. -/
  written : ∀ needed ∈ neededImports extra, ∃ held, (needed.path, held) ∈ extra ∧
    needed.name = if held.renamed then some held.name else none

/-- Whatever is asked for, and in whatever order, answers and noted imports are consistent. -/
theorem answers_consistent (view : Viewpoint) (packages : List PackageRef) :
    view.Consistent packages (view.answers packages).1 (view.answers packages).2 := by
  have run : view.answers packages = (packages.map fun package =>
      view.qualifierOf (packages.foldl view.noting []) package.path,
      packages.foldl view.noting []) := view.mapM_qualify_run packages []
  have sound : view.Sound (packages.foldl view.noting []) :=
    Sound.foldl packages ⟨List.Pairwise.nil, by simp, by simp⟩
  have recorded := fun path => (view.exists_mem_foldl_noting packages [] path).trans
    (by simp [isSettled_eq_false_iff] : _ ↔ (∃ package ∈ packages, package.path = path) ∧
      view.testImports.lookup path = none ∧ ¬(view.external = false ∧ path = view.subject.path))
  rw [run]
  dsimp only
  generalize noted : packages.foldl view.noting [] = extra at sound recorded ⊢
  have answer : ∀ (i : Nat) (package : PackageRef), packages[i]? = some package →
      (packages.map fun package => view.qualifierOf extra package.path)[i]? =
        some (view.qualifierOf extra package.path) := by
    intro i package asked
    rw [List.getElem?_map, asked, Option.map_some]
  constructor
  case alike =>
    refine ⟨by simp, ?_⟩
    intro i j first second one other same
    rw [answer i first one, answer j second other, same]
  case within =>
    intro inside
    constructor
    · intro i package asked same
      rw [answer i package asked]
      simp [qualifierOf, isWithin, inside, same]
    · intro held member
      have unsettled := sound.unsettled _ member
      simp [isSettled, isWithin, inside] at unsettled
  case named =>
    intro i package held asked member
    rw [answer i package asked]
    have unsettled := sound.unsettled _ member
    simp only [isSettled, Bool.or_eq_false_iff, Option.isSome_eq_false_iff,
      Option.isNone_iff_eq_none] at unsettled
    simp [qualifierOf, unsettled.1, unsettled.2, lookup_of_mem sound.ordered member]
  case noted => exact recorded
  case apart => exact sound.apart
  case chosen =>
    intro earlier package later held split first member
    have before : (view.answers earlier).2 = earlier.foldl view.noting [] :=
      congrArg Prod.snd (view.mapM_qualify_run earlier [])
    rw [before]
    -- Nothing was noted for the path before, so its first request chose the name.
    have unknown : (earlier.foldl view.noting []).lookup package.path = none := by
      rw [lookup_eq_none_iff_forall]
      intro entry old same
      have asked := (view.exists_mem_foldl_noting earlier [] package.path).mp ⟨entry.2, same ▸ old⟩
      obtain ⟨held, absurd⟩ | ⟨⟨other, otherMem, again⟩, -⟩ := asked
      · simp at absurd
      · exact first other otherMem again
    have held' := view.lookup_noting_self (earlier.foldl view.noting [])
      (sound.unsettled _ member)
    rw [unknown, Option.getD_none] at held'
    have final := view.lookup_foldl_noting later held'
    have whole : later.foldl view.noting (view.noting (earlier.foldl view.noting []) package) =
        extra := by
      rw [← noted, split, List.foldl_append, List.foldl_cons]
    rw [whole, lookup_of_mem sound.ordered member] at final
    rw [Option.some.inj final]
    exact view.chooseName_names _ package
  case ascending =>
    have paths : (neededImports extra).map Import.path = extra.map Prod.fst := by
      simp [neededImports, Function.comp_def]
    refine ⟨paths, ?_⟩
    have keys := List.pairwise_map.mpr sound.ordered
    rw [← paths] at keys
    exact List.pairwise_map.mp keys
  case written =>
    intro needed member
    obtain ⟨entry, held, rfl⟩ := List.mem_map.mp member
    exact ⟨entry.2, held, rfl⟩

end Viewpoint

end Scaffold
