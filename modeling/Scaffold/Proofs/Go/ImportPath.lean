import Scaffold.Go.Module
import Scaffold.Proofs.PathSteps

/-! Import paths and directories of a module: each names the other. -/

namespace Scaffold.Go

/-- The import path of what some components lead to from the directory of a module. -/
def importPathBelow (path : String) (below : List Component) : String :=
  if below.isEmpty then path else path ++ "/" ++ joinStrings "/" (below.map Component.text)

section Prefixes

/-- Whether an import path is that of a module, or of something inside it. -/
def IsWithin (path imported : String) : Prop :=
  imported = path ∨ ∃ rest, imported = path ++ "/" ++ rest

theorem afterPrefix?_append (lead rest : List Char) :
    afterPrefix? lead (lead ++ rest) = some rest := by
  have leads : lead.isPrefixOf (lead ++ rest) = true :=
    List.isPrefixOf_iff_prefix.mpr (List.prefix_append lead rest)
  rw [afterPrefix?, if_pos leads, List.drop_left]

theorem eq_of_afterPrefix? {lead text rest : List Char}
    (leads : afterPrefix? lead text = some rest) : text = lead ++ rest := by
  rw [afterPrefix?] at leads
  split at leads
  · rename_i front
    obtain ⟨more, rfl⟩ := List.isPrefixOf_iff_prefix.mp front
    cases leads
    rw [List.drop_left]
  · cases leads

/-- What an import path says behind the path of a module, if it begins with that. -/
def remainder? (path imported : String) : Option (List Char) :=
  if imported == path then some []
  else (afterPrefix? path.toList imported.toList).bind (afterPrefix? ['/'])

/-- The directory that a text leads to by its pieces between slashes. -/
def walk (root : FilePath) (text : List Char) : FilePath :=
  ((splitOn '/' text).filter fun piece => !piece.isEmpty).foldl
    (fun directory piece => directory.join (String.ofList piece)) root

theorem directory?_eq (module : Module) (imported : String) :
    module.directory? imported = (remainder? module.path imported).map (walk module.root) := by
  rw [Module.directory?, remainder?]
  split
  · rfl
  · cases (afterPrefix? module.path.toList imported.toList).bind (afterPrefix? ['/']) <;> rfl

/-- Behind the path of a module and a slash, the rest of an import path is what follows them. -/
theorem remainder?_append (path rest : String) :
    remainder? path (path ++ "/" ++ rest) = some rest.toList := by
  have longer : (path ++ "/" ++ rest == path) = false := by
    refine beq_false_of_ne fun same => ?_
    have lengths := congrArg String.length same
    have slash : "/".length = 1 := rfl
    simp only [String.length_append] at lengths
    omega
  have text : (path ++ "/" ++ rest).toList = path.toList ++ (['/'] ++ rest.toList) := by simp
  rw [remainder?, longer, if_neg (by simp), text, afterPrefix?_append, Option.bind_some,
    afterPrefix?_append]

/-- Inside a module are the import paths that say something behind its own. -/
theorem isWithin_iff (path imported : String) :
    IsWithin path imported ↔ (remainder? path imported).isSome = true := by
  constructor
  · rintro (rfl | ⟨rest, rfl⟩)
    · rw [remainder?, if_pos (beq_self_eq_true imported)]
      rfl
    · rw [remainder?_append]
      rfl
  · intro some
    obtain ⟨rest, found⟩ := Option.isSome_iff_exists.mp some
    rw [remainder?] at found
    split at found
    · rename_i same
      exact .inl (eq_of_beq same)
    · obtain ⟨behind, leads, slash⟩ := Option.bind_eq_some_iff.mp found
      refine .inr ⟨String.ofList rest, String.toList_inj.mp ?_⟩
      rw [eq_of_afterPrefix? leads, eq_of_afterPrefix? slash]
      simp

instance (path imported : String) : Decidable (IsWithin path imported) :=
  decidable_of_iff _ (isWithin_iff path imported).symm

/-- No directory is named by an import path that only starts with the letters of the module's. -/
theorem isWithin_of_directory? {module : Module} {imported : String} {directory : FilePath}
    (named : module.directory? imported = some directory) : IsWithin module.path imported := by
  rw [directory?_eq] at named
  obtain ⟨rest, found, -⟩ := Option.map_eq_some_iff.mp named
  rw [isWithin_iff, found]
  rfl

end Prefixes

section Directories

variable {module : Module} {directory : FilePath} {below : List Component}

/-- A directory of a module has the import path of the components that lead to it. -/
theorem importPath_eq (descends : directory.Descends module.root below) :
    module.importPath directory = importPathBelow module.path below := by
  have leads : module.root.components.isPrefixOf directory.components = true := by
    rw [List.isPrefixOf_iff_prefix, descends.1]
    exact List.prefix_append _ _
  have parts : directory.componentsBelow module.root = below := by
    rw [FilePath.componentsBelow, if_pos leads, descends.1, List.drop_left]
  rw [Module.importPath, parts, importPathBelow]
  simp

/-- The pieces of the text behind the path of a module are the texts of the components. -/
theorem pieces_joinStrings {texts : List String} (some : texts ≠ [])
    (plain : ∀ text ∈ texts, '/' ∉ text.toList ∧ text.toList ≠ []) :
    (splitOn '/' (joinStrings "/" texts).toList).filter (fun piece => !piece.isEmpty) =
      texts.map String.toList := by
  have unbroken : ∀ piece ∈ texts.map String.toList, '/' ∉ piece := by
    intro piece member
    obtain ⟨text, among, rfl⟩ := List.mem_map.mp member
    exact (plain text among).1
  rw [joinStrings, String.toList_ofList]
  show (splitOn '/' (joinWith ['/'] _)).filter _ = _
  rw [splitOn_joinWith (by simpa using some) unbroken]
  refine List.filter_eq_self.mpr fun piece member => ?_
  obtain ⟨text, among, rfl⟩ := List.mem_map.mp member
  simpa using (plain text among).2

/-- What an import path below a module says behind the module's is the texts it was made of. -/
theorem remainder?_importPathBelow (path : String) (below : List Component) :
    remainder? path (importPathBelow path below) =
      some (joinStrings "/" (below.map Component.text)).toList := by
  rw [importPathBelow]
  split
  · rename_i none
    obtain rfl := List.isEmpty_iff.mp none
    rw [remainder?, if_pos (beq_self_eq_true path)]
    rfl
  · exact remainder?_append path _

/-- The directory that an import path below a module names is the one its components lead to. -/
theorem exists_directory? (descends : directory.Descends module.root below) :
    ∃ found, module.directory? (importPathBelow module.path below) = some found ∧
      found.same directory = true := by
  refine ⟨_, ?_, descends.foldl_join⟩
  rw [directory?_eq, remainder?_importPathBelow, Option.map_some, walk]
  cases below with
  | nil => rfl
  | cons component rest =>
    have plain : ∀ text ∈ (component :: rest).map Component.text,
        '/' ∉ text.toList ∧ text.toList ≠ [] := by
      intro text member
      obtain ⟨held, among, rfl⟩ := List.mem_map.mp member
      exact descends.text held among
    rw [pieces_joinStrings (by simp) plain]
    simp only [List.foldl_map, String.ofList_toList]

end Directories

end Scaffold.Go
