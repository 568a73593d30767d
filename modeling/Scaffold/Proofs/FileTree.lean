import Mathlib.Data.List.Lex
import Mathlib.Data.Prod.Lex
import Mathlib.Data.String.Basic
import Scaffold.Proofs.FilePath
import Scaffold.Workspace

/-! File trees in the order of paths, in which a path leads to one file. -/

namespace Scaffold

/-- What decides on the place of a component: its kind, and then its name. -/
def Component.key : Component → Nat ×ₗ String
  | .root => toLex (0, "")
  | .current => toLex (1, "")
  | .parent => toLex (2, "")
  | .named name => toLex (3, name)

theorem Component.key_injective : Function.Injective Component.key := by
  rintro (_ | _ | _ | first) (_ | _ | _ | second) same <;> simp_all [Component.key]

/-- Components come in the order of their keys. -/
theorem Component.before_iff (first second : Component) :
    first.before second = true ↔ first.key < second.key := by
  cases first <;> cases second <;>
    simp [Component.before, Component.key, Component.rank, Prod.Lex.lt_iff]

namespace FilePath

/-- What decides on the place of a path: the keys of its components. -/
def key (path : FilePath) : List (Nat ×ₗ String) :=
  path.components.map Component.key

/-- Paths are the same if their keys are. -/
theorem same_iff (first second : FilePath) : first.same second = true ↔ first.key = second.key := by
  rw [same, beq_iff_eq]
  exact (List.map_injective_iff.mpr Component.key_injective).eq_iff.symm

theorem componentsBefore_iff (first second : List Component) :
    componentsBefore first second = true ↔
      first.map Component.key < second.map Component.key := by
  induction first generalizing second with
  | nil => cases second <;> simp [componentsBefore]
  | cons head rest ih =>
    cases second with
    | nil => simp [componentsBefore]
    | cons other others =>
      rw [componentsBefore, List.map_cons, List.map_cons, List.cons_lt_cons_iff]
      by_cases equal : head = other
      · simp [equal, ih]
      · have keys : head.key ≠ other.key := fun same => equal (Component.key_injective same)
        simp [equal, keys, Component.before_iff]

/-- Paths come in the order of their keys. -/
theorem before_iff (first second : FilePath) :
    first.before second = true ↔ first.key < second.key :=
  componentsBefore_iff _ _

end FilePath

namespace FileTree

/-- The files stand in strict order of their paths. -/
def IsOrdered (tree : FileTree) : Prop :=
  tree.files.Pairwise fun first second => first.1.before second.1 = true

/-- Inserting puts a file behind those that come before it. -/
theorem forall_mem_insertInto {path : FilePath} {text : String} {files : List (FilePath × String)}
    {low : FilePath} (least : low.before path = true)
    (others : ∀ file ∈ files, low.before file.1 = true) :
    ∀ file ∈ insertInto path text files, low.before file.1 = true := by
  induction files with
  | nil => simpa [insertInto] using least
  | cons file rest ih =>
    obtain ⟨head, tail⟩ := List.forall_mem_cons.mp others
    rw [insertInto]
    split
    · exact List.forall_mem_cons.mpr ⟨head, tail⟩
    · split
      · exact List.forall_mem_cons.mpr ⟨least, others⟩
      · exact List.forall_mem_cons.mpr ⟨head, ih tail⟩

/-- Adding or replacing a file keeps the order. -/
theorem isOrdered_insert {tree : FileTree} (ordered : tree.IsOrdered) (path : FilePath)
    (text : String) : (tree.insert path text).IsOrdered := by
  obtain ⟨files⟩ := tree
  unfold IsOrdered insert at *
  dsimp only at *
  induction files with
  | nil => exact List.pairwise_singleton _ _
  | cons file rest ih =>
    obtain ⟨least, later⟩ := List.pairwise_cons.mp ordered
    rw [insertInto]
    split
    · exact List.pairwise_cons.mpr ⟨least, later⟩
    · rename_i other
      split
      · rename_i before
        refine List.pairwise_cons.mpr ⟨List.forall_mem_cons.mpr ⟨before, ?_⟩, ordered⟩
        intro next member
        have behind := least next member
        rw [FilePath.before_iff] at before behind ⊢
        exact before.trans behind
      · rename_i behind
        -- A path that is neither the same nor before comes after.
        rw [FilePath.same_iff] at other
        rw [FilePath.before_iff] at behind
        have after : file.1.before path = true :=
          (FilePath.before_iff _ _).mpr (lt_of_le_of_ne (not_lt.mp behind) (Ne.symm other))
        exact List.pairwise_cons.mpr ⟨forall_mem_insertInto after least, ih later⟩

theorem isOrdered_remove {tree : FileTree} (ordered : tree.IsOrdered) (path : FilePath) :
    (tree.remove path).IsOrdered :=
  List.Pairwise.filter _ ordered

/-- However files are added, they come to stand in order. -/
theorem isOrdered_ofList (files : List (FilePath × String)) : (ofList files).IsOrdered := by
  have all : ∀ (files : List (FilePath × String)) (tree : FileTree), tree.IsOrdered →
      (files.foldl (fun tree file => tree.insert file.1 file.2) tree).IsOrdered := by
    intro files
    induction files with
    | nil => exact fun tree ordered => ordered
    | cons file rest ih => exact fun tree ordered => ih _ (isOrdered_insert ordered _ _)
  exact all files empty List.Pairwise.nil

/-- The file that a path leads to, with the path in the spelling it was added in. -/
def fileAt? (tree : FileTree) (path : FilePath) : Option (FilePath × String) :=
  tree.files.find? fun (other, _) => path.same other

theorem read?_eq (tree : FileTree) (path : FilePath) :
    tree.read? path = (tree.fileAt? path).map Prod.snd :=
  rfl

/-- Adding or replacing a file changes nothing for other paths. -/
theorem fileAt?_insert_of_not_same (tree : FileTree) {path asked : FilePath} (text : String)
    (differs : asked.same path = false) :
    (tree.insert path text).fileAt? asked = tree.fileAt? asked := by
  obtain ⟨files⟩ := tree
  rw [fileAt?, fileAt?, insert]
  dsimp only
  induction files with
  | nil => simp [insertInto, differs]
  | cons file rest ih =>
    rw [insertInto]
    split
    · rename_i same
      -- The replaced file is at the path as well, so it is not asked for.
      have other : asked.same file.1 = false := by
        rw [FilePath.same, ← eq_of_beq same]
        exact differs
      simp [other]
    · split
      · simp [differs]
      · simp only [List.find?_cons, ih]

/-- In order, the path of each file leads to that file. -/
theorem fileAt?_of_mem {tree : FileTree} (ordered : tree.IsOrdered) {file : FilePath × String}
    (member : file ∈ tree.files) : tree.fileAt? file.1 = some file := by
  obtain ⟨files⟩ := tree
  unfold IsOrdered at ordered
  rw [fileAt?]
  dsimp only at *
  induction files with
  | nil => cases member
  | cons first rest ih =>
    obtain ⟨least, later⟩ := List.pairwise_cons.mp ordered
    rcases List.mem_cons.mp member with rfl | behind
    · simp [same_refl]
    · -- Files in front have paths that come before, so they are not the same.
      have before := (FilePath.before_iff _ _).mp (least file behind)
      have differs : file.1.same first.1 = false := by
        rw [← Bool.not_eq_true, FilePath.same_iff]
        exact before.ne'
      simpa [differs] using ih later behind

/-- Trees in order that lead to the same files from some paths hold the same files there. -/
theorem filter_files_eq {tree other : FileTree} (ordered : tree.IsOrdered)
    (ordered' : other.IsOrdered) {keep : FilePath → Bool}
    (agree : ∀ path, keep path = true → tree.fileAt? path = other.fileAt? path) :
    tree.files.filter (fun file => keep file.1) = other.files.filter (fun file => keep file.1) := by
  have asymm : ∀ {first second : FilePath × String}, first.1.before second.1 = true →
      ¬ second.1.before first.1 = true := by
    intro first second before after
    rw [FilePath.before_iff] at before after
    exact lt_asymm before after
  have distinct : ∀ {tree : FileTree}, tree.IsOrdered →
      (tree.files.filter fun file => keep file.1).Nodup := by
    intro tree ordered
    refine (ordered.filter _).imp fun {first second} before same => ?_
    rw [same] at before
    exact asymm before before
  have inside : ∀ {tree other : FileTree}, tree.IsOrdered →
      (∀ path, keep path = true → tree.fileAt? path = other.fileAt? path) →
      ∀ file ∈ tree.files.filter (fun file => keep file.1),
        file ∈ other.files.filter fun file => keep file.1 := by
    intro tree other ordered agree file member
    obtain ⟨held, kept⟩ := List.mem_filter.mp member
    have found := fileAt?_of_mem ordered held
    rw [agree file.1 kept] at found
    exact List.mem_filter.mpr ⟨List.mem_of_find?_eq_some found, kept⟩
  have perm := (List.perm_ext_iff_of_nodup (distinct ordered) (distinct ordered')).mpr fun file =>
    ⟨inside ordered agree file, inside ordered' (fun path kept => (agree path kept).symm) file⟩
  exact perm.eq_of_pairwise (fun _ _ _ _ before after => absurd after (asymm before))
    (ordered.filter _) (ordered'.filter _)

end FileTree

end Scaffold
