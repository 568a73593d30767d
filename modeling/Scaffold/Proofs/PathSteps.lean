import Mathlib.Data.List.Induction
import Mathlib.Data.List.TakeWhile
import Scaffold.Proofs.AbsolutePath

/-! Paths by their components: a step down, a step up, and the directories a path lies under. -/

namespace Scaffold

/-- Whether a component can stand behind others: a root never does, and a dot only leads. -/
def Component.Follows (front : List Component) : Component → Prop
  | .root => False
  | .current => front = []
  | .parent => True
  | .named name => IsFileName name.toList

/-- What follows other components is written without a slash, and not as nothing. -/
theorem Component.Follows.text {front : List Component} {last : Component}
    (follows : last.Follows front) : '/' ∉ last.text.toList ∧ last.text.toList ≠ [] := by
  cases last with
  | root => cases follows
  | current => decide
  | parent => decide
  | named name =>
    refine ⟨follows.unbroken, fun empty => ?_⟩
    -- A name of no characters would be void.
    have solid := follows.solid
    rw [show name.toList = [] from empty] at solid
    cases solid

/-- What is cut off an end is all of the kind that is cut. -/
theorem exists_dropTrailing {α : Type} (test : α → Bool) (xs : List α) :
    ∃ dropped, xs = dropTrailing test xs ++ dropped ∧ ∀ x ∈ dropped, test x = true := by
  refine ⟨(xs.reverse.takeWhile test).reverse, ?_, ?_⟩
  · rw [dropTrailing, ← List.reverse_append, List.takeWhile_append_dropWhile, List.reverse_reverse]
  · intro x member
    exact List.mem_takeWhile_imp (List.mem_reverse.mp member)

namespace FilePath

theorem same_symm {first second : FilePath} (same : first.same second = true) :
    second.same first = true :=
  beq_iff_eq.mpr (eq_of_beq same).symm

theorem same_trans {first second third : FilePath} (same : first.same second = true)
    (next : second.same third = true) : first.same third = true :=
  beq_iff_eq.mpr ((eq_of_beq same).trans (eq_of_beq next))

/-- The components that a leading slash or dot stands for. -/
def leadComponents (lead : List Char) : List Component :=
  if lead == ['/'] then [.root] else if lead == ['.'] then [.current] else []

/-- The components that the pieces between slashes stand for. -/
def pieceComponents (pieces : List (List Char)) : List Component :=
  (pieces.filter fun piece => !isVoid piece).map pieceComponent

theorem components_eq (path : FilePath) : path.components =
    leadComponents path.leading.1 ++ pieceComponents (splitOn '/' path.leading.2) :=
  rfl

theorem pieceComponents_append (first second : List (List Char)) :
    pieceComponents (first ++ second) = pieceComponents first ++ pieceComponents second := by
  simp [pieceComponents]

/-- Void pieces stand for no component. -/
theorem pieceComponents_of_void {pieces : List (List Char)}
    (void : ∀ piece ∈ pieces, isVoid piece = true) : pieceComponents pieces = [] := by
  have none : pieces.filter (fun piece => !isVoid piece) = [] :=
    List.filter_eq_nil_iff.mpr fun piece member => by simp [void piece member]
  rw [pieceComponents, none, List.map_nil]

theorem pieceComponents_dropTrailing (pieces : List (List Char)) :
    pieceComponents (dropTrailing isVoid pieces) = pieceComponents pieces := by
  obtain ⟨dropped, whole, void⟩ := exists_dropTrailing isVoid pieces
  conv_rhs => rw [whole]
  rw [pieceComponents_append, pieceComponents_of_void void, List.append_nil]

/-- A piece that is not void stands for a component that can follow any. -/
theorem follows_pieceComponent {piece : List Char} (unbroken : '/' ∉ piece)
    (solid : isVoid piece = false) (front : List Component) :
    (pieceComponent piece).Follows front := by
  rw [pieceComponent]
  split
  · trivial
  · rename_i other
    refine ⟨?_, ?_, ?_⟩
    · rwa [String.toList_ofList]
    · rwa [String.toList_ofList]
    · rw [String.toList_ofList]
      simpa using other

section Leading

/-- Text leads with neither slash nor dot if something else stands in front of its first slash. -/
theorem leading_of_solid {text piece : List Char} {more : List (List Char)}
    (pieces : splitOn '/' text = piece :: more) (solid : isVoid piece = false) :
    leading ⟨String.ofList text⟩ = ([], text) := by
  rw [leading, String.toList_ofList]
  split
  · cases pieces
    cases solid
  · cases pieces
    cases solid
  · cases pieces
    cases solid
  · rfl

/-- Text that leads with neither is what comes behind nothing. -/
theorem leading_of_unled {path : FilePath} (unled : path.leading.1 = []) :
    path.leading.2 = path.text.toList := by
  unfold leading at unled ⊢
  split <;> simp_all

/-- Text that leads with neither is empty, or something else stands in front of its first slash. -/
theorem solid_of_unled {path : FilePath} (unled : path.leading.1 = [])
    (some : path.text.toList ≠ []) : ∃ piece more,
      splitOn '/' path.text.toList = piece :: more ∧ isVoid piece = false := by
  obtain ⟨piece, more, pieces⟩ := List.exists_cons_of_ne_nil (splitOn_ne_nil '/' path.text.toList)
  refine ⟨piece, more, pieces, Bool.eq_false_iff.mpr fun void => ?_⟩
  -- The text is its pieces joined, so a void one in front would lead it.
  have joined := joinWith_splitOn '/' path.text.toList
  rw [pieces] at joined
  rw [leading, ← joined] at unled
  rcases Bool.or_eq_true _ _ ▸ void with empty | dot
  · obtain rfl := List.isEmpty_iff.mp empty
    cases more with
    | nil => exact some joined.symm
    | cons next rest => cases unled
  · obtain rfl := eq_of_beq dot
    cases more <;> cases unled

/-- What is written behind a slash leaves what leads a path. -/
theorem leading_append {path : FilePath} (some : path.text.toList ≠ []) (rest : List Char) :
    leading ⟨String.ofList (path.text.toList ++ '/' :: rest)⟩ =
      (path.leading.1, path.leading.2 ++ '/' :: rest) := by
  by_cases unled : path.leading.1 = []
  · obtain ⟨piece, more, pieces, solid⟩ := solid_of_unled unled some
    have longer : splitOn '/' (path.text.toList ++ '/' :: rest) =
        piece :: (more ++ splitOn '/' rest) := by
      rw [splitOn_append, pieces, List.cons_append]
    rw [leading_of_solid longer solid, leading_of_unled unled, unled]
  · unfold leading at unled ⊢
    rw [String.toList_ofList]
    split at unled
    · rename_i text
      rw [text]
      rfl
    · rename_i text
      rw [text]
      rfl
    · rename_i text
      rw [text]
      rfl
    · exact absurd rfl unled

/-- So it adds the components of what stands behind the slash. -/
theorem components_append {path : FilePath} (some : path.text.toList ≠ []) (rest : List Char) :
    components ⟨String.ofList (path.text.toList ++ '/' :: rest)⟩ =
      path.components ++ pieceComponents (splitOn '/' rest) := by
  rw [components_eq, leading_append some, components_eq, splitOn_append, pieceComponents_append,
    List.append_assoc]

/-- Behind a slash a path goes on in the same way, whatever stands in front. -/
theorem exists_components_slash (front : List Char) : ∃ above, ∀ rest,
    components ⟨String.ofList (front ++ '/' :: rest)⟩ =
      above ++ pieceComponents (splitOn '/' rest) := by
  by_cases top : front = []
  · refine ⟨[.root], fun rest => ?_⟩
    rw [top, List.nil_append, components_eq, leading, String.toList_ofList]
    rfl
  · refine ⟨components ⟨String.ofList front⟩, fun rest => ?_⟩
    have filled : (FilePath.mk (String.ofList front)).text.toList ≠ [] := by
      rwa [String.toList_ofList]
    have longer := components_append filled rest
    rwa [String.toList_ofList] at longer

end Leading

section Down

/-- Only the empty path has no components. -/
theorem text_of_components_nil {path : FilePath} (none : path.components = []) :
    path.text.toList = [] := by
  by_contra some
  have split := components_eq path
  rw [none] at split
  obtain ⟨leads, pieces⟩ := List.append_eq_nil_iff.mp split.symm
  have unled : path.leading.1 = [] := by
    -- A slash or a dot would stand for a component.
    unfold leading at leads ⊢
    split at leads
    · cases leads
    · cases leads
    · cases leads
    · rfl
  obtain ⟨piece, more, first, solid⟩ := solid_of_unled unled some
  rw [leading_of_unled unled, first] at pieces
  simp [pieceComponents, solid] at pieces

/-- What follows others is found again in its text. -/
theorem pieceComponents_text {front : List Component} {last : Component}
    (follows : last.Follows front) (later : last ≠ .current) :
    pieceComponents (splitOn '/' last.text.toList) = [last] := by
  rw [splitOn_of_not_mem follows.text.1]
  cases last with
  | root => cases follows
  | current => exact absurd rfl later
  | parent => rfl
  | named name =>
    have other : (name.toList == ['.', '.']) = false := by simpa using follows.named
    simp [pieceComponents, Component.text, follows.solid, pieceComponent, other]

/-- What follows nothing makes up a path of its own. -/
theorem components_text {last : Component} (follows : last.Follows []) :
    components ⟨last.text⟩ = [last] := by
  by_cases dot : last = .current
  · rw [dot]
    decide
  have pieces := pieceComponents_text follows dot
  rw [splitOn_of_not_mem follows.text.1] at pieces
  have solid : isVoid last.text.toList = false := by
    refine Bool.eq_false_iff.mpr fun void => ?_
    rw [pieceComponents_of_void (by simpa using void)] at pieces
    cases pieces
  have unled := leading_of_solid (splitOn_of_not_mem follows.text.1) solid
  rw [String.ofList_toList] at unled
  rw [components_eq, unled, splitOn_of_not_mem follows.text.1, pieces]
  rfl

/-- The text of what follows a path is the step down from it. -/
theorem components_join {path : FilePath} {last : Component}
    (follows : last.Follows path.components) :
    (path.join last.text).components = path.components ++ [last] := by
  have unled : beginsWith last.text "/" = false := by
    rw [beginsWith, Bool.eq_false_iff]
    intro leads
    obtain ⟨rest, whole⟩ := List.isPrefixOf_iff_prefix.mp leads
    exact follows.text.1 (by rw [← whole]; simp)
  by_cases none : path.text.toList = []
  · -- Nothing stands in front, so the text is the whole path.
    have empty : path = ⟨""⟩ := congrArg FilePath.mk (String.toList_eq_nil_iff.mp none)
    subst empty
    rw [join, unled, if_neg (by simp), if_pos (by decide)]
    exact components_text follows
  have later : last ≠ .current := by
    rintro rfl
    exact none (text_of_components_nil follows)
  have filled : path.text.isEmpty = false := by
    rw [Bool.eq_false_iff]
    exact fun empty => none (String.toList_eq_nil_iff.mpr (String.isEmpty_iff.mp empty))
  rw [join, unled, filled, if_neg (by simp), Bool.false_or]
  split
  · rename_i slash
    -- The slash is there already, and the path is what stands in front of it.
    obtain ⟨front, whole⟩ := List.isSuffixOf_iff_suffix.mp slash
    obtain ⟨above, behind⟩ := exists_components_slash front
    have spelled : path = ⟨String.ofList (front ++ '/' :: [])⟩ :=
      congrArg FilePath.mk (String.toList_inj.mp (by rw [String.toList_ofList, ← whole]; rfl))
    have longer : path.text ++ last.text = String.ofList (front ++ '/' :: last.text.toList) := by
      apply String.toList_inj.mp
      rw [String.toList_append, String.toList_ofList, ← whole, List.append_assoc]
      rfl
    have here : path.components = above := by
      rw [spelled, behind]
      exact List.append_nil above
    rw [longer, behind, pieceComponents_text follows later, here]
  · have spelled : path.text ++ "/" ++ last.text =
        String.ofList (path.text.toList ++ '/' :: last.text.toList) := by
      apply String.toList_inj.mp
      simp
    rw [spelled, components_append none, pieceComponents_text follows later]

end Down

section Up

/-- Behind the solid pieces of a path there are only void ones. -/
theorem exists_solidPieces (path : FilePath) : ∃ dropped,
    splitOn '/' path.leading.2 = path.solidPieces ++ dropped ∧
      ∀ piece ∈ dropped, isVoid piece = true :=
  exists_dropTrailing isVoid _

theorem components_eq_solidPieces (path : FilePath) :
    path.components = leadComponents path.leading.1 ++ pieceComponents path.solidPieces := by
  rw [solidPieces, pieceComponents_dropTrailing, components_eq]

/-- What is left without trailing void pieces is nothing, or ends in a solid one. -/
theorem solid_of_getLast? {pieces : List (List Char)} {final : List Char}
    (last : (dropTrailing isVoid pieces).getLast? = some final) : isVoid final = false := by
  rw [getLast?_dropTrailing] at last
  simpa using (List.mem_filter.mp (List.mem_of_getLast? last)).2

/-- Pieces without slashes stand for the same components when they are joined. -/
theorem pieceComponents_joinWith {pieces : List (List Char)}
    (unbroken : ∀ piece ∈ pieces, '/' ∉ piece) :
    pieceComponents (splitOn '/' (joinWith ['/'] pieces)) = pieceComponents pieces := by
  cases pieces with
  | nil => rfl
  | cons piece more => rw [splitOn_joinWith (by simp) unbroken]

/-- A slash leads a path, or a dot with nothing up to the next slash, or neither. -/
theorem leading_cases (path : FilePath) : path.leading.1 = ['/'] ∨
    (path.leading.1 = ['.'] ∧ ∃ more, splitOn '/' path.leading.2 = [] :: more) ∨
    path.leading.1 = [] := by
  unfold leading
  split
  · exact .inl rfl
  · exact .inr (.inl ⟨rfl, [], rfl⟩)
  · exact .inr (.inl ⟨rfl, _, rfl⟩)
  · exact .inr (.inr rfl)

/-- The front pieces of a path are led by what leads the path. -/
theorem leading_front {path : FilePath} {front rest : List (List Char)}
    (whole : splitOn '/' path.leading.2 = front ++ rest)
    (solid : ∀ final, front.getLast? = some final → isVoid final = false) :
    leading ⟨String.ofList (path.leading.1 ++ joinWith ['/'] front)⟩ =
      (path.leading.1, joinWith ['/'] front) := by
  have unbroken : ∀ piece ∈ front, '/' ∉ piece := fun piece member =>
    not_mem_of_mem_splitOn (whole ▸ List.mem_append_left _ member)
  rcases path.leading_cases with slash | ⟨dot, others, void⟩ | unled
  · rw [slash, leading, String.toList_ofList]
    rfl
  · rw [dot]
    cases front with
    | nil => rfl
    | cons piece more =>
      obtain ⟨rfl, -⟩ := List.cons.inj (whole.symm.trans void)
      -- Behind the void piece there is another, so the text goes on with a slash.
      cases more with
      | nil => cases solid [] rfl
      | cons next more =>
        rw [leading, String.toList_ofList]
        rfl
  · rw [unled, List.nil_append]
    cases front with
    | nil => rfl
    | cons piece more =>
      rw [leading_of_unled unled, List.cons_append] at whole
      by_cases none : path.text.toList = []
      · -- The only piece of the empty text is void.
        rw [none] at whole
        obtain ⟨rfl, empty⟩ := List.cons.inj whole
        obtain ⟨rfl, -⟩ := List.append_eq_nil_iff.mp empty.symm
        cases solid [] rfl
      · obtain ⟨first, others, pieces, held⟩ := solid_of_unled unled none
        obtain ⟨rfl, -⟩ := List.cons.inj (pieces.symm.trans whole)
        exact leading_of_solid (splitOn_joinWith (by simp) unbroken) held

/-- The last solid piece goes, and so do the void ones in front of it. -/
theorem parent?_of_solidPieces {path : FilePath} {front : List (List Char)} {final : List Char}
    (pieces : path.solidPieces = front ++ [final]) : path.parent? =
      some ⟨String.ofList (path.leading.1 ++ joinWith ['/'] (dropTrailing isVoid front))⟩ := by
  rw [parent?, pieces]
  split
  · rename_i none
    simp at none
  · rw [List.dropLast_concat]

/-- So the parent has the components of the pieces in front. -/
theorem components_front {path : FilePath} {front : List (List Char)} {final : List Char}
    (pieces : path.solidPieces = front ++ [final]) :
    components ⟨String.ofList (path.leading.1 ++ joinWith ['/'] (dropTrailing isVoid front))⟩ =
      leadComponents path.leading.1 ++ pieceComponents front := by
  obtain ⟨dropped, whole, -⟩ := path.exists_solidPieces
  obtain ⟨void, kept, -⟩ := exists_dropTrailing isVoid front
  have parts : splitOn '/' path.leading.2 =
      dropTrailing isVoid front ++ (void ++ [final] ++ dropped) := by
    conv_lhs => rw [whole, pieces, kept]
    simp only [List.append_assoc]
  have unbroken : ∀ piece ∈ dropTrailing isVoid front, '/' ∉ piece := fun piece member =>
    not_mem_of_mem_splitOn (parts ▸ List.mem_append_left _ member)
  rw [components_eq, leading_front parts fun _ => solid_of_getLast?,
    pieceComponents_joinWith unbroken, pieceComponents_dropTrailing]

/-- A parent has all components but the last, which follows them. -/
theorem components_of_parent? {path parent : FilePath} (up : path.parent? = some parent) :
    ∃ last, last.Follows parent.components ∧ path.components = parent.components ++ [last] := by
  have here := path.components_eq_solidPieces
  rcases List.eq_nil_or_concat path.solidPieces with none | ⟨front, final, pieces⟩
  · rw [parent?, none] at up
    rw [none] at here
    dsimp only at up
    split at up
    · -- A dot is all there is, and nothing is left without it.
      rename_i dot
      cases up
      rw [eq_of_beq dot] at here
      exact ⟨.current, rfl, here⟩
    · cases up
  · rw [List.concat_eq_append] at pieces
    rw [parent?_of_solidPieces pieces] at up
    cases up
    rw [components_front pieces, here, pieces, pieceComponents_append]
    have last : path.solidPieces.getLast? = some final := by simp [pieces]
    have solid : isVoid final = false := solid_of_getLast? last
    obtain ⟨dropped, whole, -⟩ := path.exists_solidPieces
    have among : final ∈ splitOn '/' path.leading.2 := by
      rw [whole, pieces]
      simp
    have unbroken : '/' ∉ final := not_mem_of_mem_splitOn among
    refine ⟨pieceComponent final, follows_pieceComponent unbroken solid _, ?_⟩
    simp [pieceComponents, solid]

/-- Only the empty path and the root have no parent. -/
theorem components_of_parent?_none {path : FilePath} (top : path.parent? = none) :
    path.components = [] ∨ path.components = [.root] := by
  have here := path.components_eq_solidPieces
  rw [parent?] at top
  cases pieces : path.solidPieces with
  | nil =>
    rw [pieces] at top here
    dsimp only at top
    split at top
    · cases top
    · rename_i undotted
      rw [here]
      by_cases slash : path.leading.1 = ['/']
      · rw [slash]
        exact .inr rfl
      · refine .inl ?_
        simp [leadComponents, slash, pieceComponents] at undotted ⊢
        exact undotted
  | cons first more =>
    rw [pieces] at top
    cases top

/-- A path whose last component is not the root has the parent without it. -/
theorem exists_parent? {path : FilePath} {front : List Component} {last : Component}
    (whole : path.components = front ++ [last]) (inner : last ≠ .root) :
    ∃ parent, path.parent? = some parent ∧ parent.components = front ∧ last.Follows front := by
  cases up : path.parent? with
  | none =>
    rcases components_of_parent?_none up with none | root
    · simp [none] at whole
    · rw [root, ← List.nil_append [Component.root]] at whole
      obtain ⟨-, same⟩ := List.append_inj' whole rfl
      exact absurd (List.cons.inj same).1.symm inner
  | some parent =>
    obtain ⟨other, follows, split⟩ := components_of_parent? up
    obtain ⟨rfl, same⟩ := List.append_inj' (split.symm.trans whole) rfl
    cases same
    exact ⟨parent, rfl, rfl, follows⟩

/-- Whatever stands behind others in a path can follow them. -/
theorem follows_of_components {path : FilePath} {front rest : List Component}
    {component : Component} (whole : path.components = front ++ component :: rest) (inner : .root ∉ component :: rest) :
    component.Follows front := by
  -- From the end, each parent takes one component away until this one is the last.
  induction rest using List.reverseRecOn generalizing path with
  | nil =>
    obtain ⟨-, -, -, follows⟩ := exists_parent? whole fun root => inner (by simp [root])
    exact follows
  | append_singleton rest final ih =>
    rw [← List.cons_append, ← List.append_assoc] at whole
    obtain ⟨parent, -, above, -⟩ := exists_parent? whole fun root => inner (by simp [root])
    refine ih above fun member => inner ?_
    rw [← List.cons_append]
    exact List.mem_append_left _ member

/-- Paths that are the same have the same parents. -/
theorem parent?_of_same {first second parent : FilePath} (same : first.same second = true)
    (up : first.parent? = some parent) :
    ∃ other, second.parent? = some other ∧ other.same parent = true := by
  obtain ⟨last, follows, split⟩ := components_of_parent? up
  rw [eq_of_beq same] at split
  have inner : last ≠ .root := by
    rintro rfl
    cases follows
  obtain ⟨other, above, components, -⟩ := exists_parent? split inner
  exact ⟨other, above, beq_iff_eq.mpr components⟩

end Up

section Under

/-- Some components lead from a directory to a path: the path is the directory or lies under it. -/
def Descends (path directory : FilePath) (below : List Component) : Prop :=
  path.components = directory.components ++ below ∧ .root ∉ below

/-- What leads down does not depend on how either path is spelled. -/
theorem Descends.of_same {path directory other : FilePath} {below : List Component}
    (descends : path.Descends directory below) (same : other.same directory = true) :
    path.Descends other below :=
  ⟨by rw [descends.1, eq_of_beq same], descends.2⟩

theorem Descends.to_same {path directory other : FilePath} {below : List Component}
    (descends : path.Descends directory below) (same : other.same path = true) :
    other.Descends directory below :=
  ⟨by rw [eq_of_beq same, descends.1], descends.2⟩

/-- What leads down is written without slashes, and no part of it as nothing. -/
theorem Descends.text {path directory : FilePath} {below : List Component}
    (descends : path.Descends directory below) : ∀ component ∈ below,
      '/' ∉ component.text.toList ∧ component.text.toList ≠ [] := by
  intro component member
  obtain ⟨front, rest, rfl⟩ := List.append_of_mem member
  obtain ⟨whole, inner⟩ := descends
  rw [← List.append_assoc] at whole
  exact (follows_of_components whole fun root => inner (List.mem_append_right _ root)).text

/-- A step down leads to a path if it does so in components, however both are spelled. -/
theorem Descends.foldl_join {path directory : FilePath} {below : List Component}
    (descends : path.Descends directory below) :
    (below.foldl (fun above component => above.join component.text) directory).same path =
      true := by
  obtain ⟨whole, inner⟩ := descends
  induction below generalizing directory with
  | nil => exact beq_iff_eq.mpr (by rw [whole, List.append_nil]; rfl)
  | cons component rest ih =>
    have step := components_join (follows_of_components whole inner)
    refine ih ?_ fun member => inner (List.mem_cons_of_mem _ member)
    rw [step, whole, List.append_assoc]
    rfl

/-- Each ancestor of a path leads down to it. -/
theorem exists_descends_of_mem_ancestors (path : FilePath) :
    ∀ ancestor ∈ path.ancestors, ∃ below, path.Descends ancestor below := by
  refine forall_mem_ancestors ⟨[], (List.append_nil _).symm, List.not_mem_nil⟩ ?_
  rintro ancestor parent ⟨below, whole, inner⟩ up
  obtain ⟨last, follows, split⟩ := components_of_parent? up
  refine ⟨last :: below, ?_, ?_⟩
  · rw [whole, split, List.append_assoc]
    rfl
  · intro member
    rcases List.mem_cons.mp member with rfl | later
    · cases follows
    · exact inner later

/-- A directory that a path lies under is met on the way up from the path. -/
theorem Descends.exists_mem_ancestors {path directory : FilePath} {below : List Component}
    (descends : path.Descends directory below) :
    ∃ ancestor ∈ path.ancestors, ancestor.same directory = true := by
  obtain ⟨whole, inner⟩ := descends
  have enough : below.length ≤ path.components.length := by
    rw [whole, List.length_append]
    omega
  rw [ancestors]
  generalize path.components.length = limit at enough
  -- Each parent takes the last of the components away.
  induction below using List.reverseRecOn generalizing path limit with
  | nil =>
    refine ⟨path, ?_, beq_iff_eq.mpr (by rw [whole, List.append_nil])⟩
    cases limit <;> simp [ancestorsWithin]
  | append_singleton below final ih =>
    rw [List.length_append, List.length_singleton] at enough
    cases limit with
    | zero => omega
    | succ limit =>
      rw [← List.append_assoc] at whole
      obtain ⟨parent, up, above, -⟩ := exists_parent? whole fun root => inner (by simp [root])
      have still : .root ∉ below := fun member => inner (List.mem_append_left _ member)
      obtain ⟨ancestor, member, same⟩ := ih above still limit (by omega)
      refine ⟨ancestor, ?_, same⟩
      rw [ancestorsWithin, up]
      exact List.mem_cons_of_mem _ member

/-- The directories that a path lies under are those that are met on the way up from it. -/
theorem exists_descends_iff (path directory : FilePath) :
    (∃ below, path.Descends directory below) ↔
      ∃ ancestor ∈ path.ancestors, ancestor.same directory = true := by
  constructor
  · rintro ⟨below, descends⟩
    exact descends.exists_mem_ancestors
  · rintro ⟨ancestor, member, same⟩
    obtain ⟨below, descends⟩ := path.exists_descends_of_mem_ancestors ancestor member
    exact ⟨below, descends.of_same (same_symm same)⟩

end Under

end FilePath

end Scaffold
