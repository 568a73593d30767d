import Scaffold.FilePath

/-! File names: the last component of a path, and how it is changed. -/

namespace Scaffold

/-- No piece between separators has one in it. -/
theorem not_mem_of_mem_splitOn {separator : Char} {text piece : List Char}
    (member : piece ∈ splitOn separator text) : separator ∉ piece := by
  induction text generalizing piece with
  | nil =>
    obtain rfl := List.mem_singleton.mp member
    exact List.not_mem_nil
  | cons c text ih =>
    rw [splitOn] at member
    split at member
    · rcases List.mem_cons.mp member with rfl | later
      · exact List.not_mem_nil
      · exact ih later
    rename_i other
    have differs : separator ≠ c := fun same => other (by simp [same])
    split at member
    · obtain rfl := List.mem_singleton.mp member
      simpa using differs
    · rename_i first more split
      rcases List.mem_cons.mp member with rfl | later
      · have := ih (split ▸ List.mem_cons_self : first ∈ splitOn separator text)
        simpa using ⟨differs, this⟩
      · exact ih (split ▸ List.mem_cons_of_mem _ later)

/-- Text without a separator is a piece of its own. -/
theorem splitOn_of_not_mem {separator : Char} {text : List Char} (plain : separator ∉ text) :
    splitOn separator text = [text] := by
  induction text with
  | nil => rfl
  | cons c text ih =>
    simp only [List.mem_cons, not_or] at plain
    have other : (c == separator) = false := by simpa using Ne.symm plain.1
    simp [splitOn, other, ih plain.2]

/-- The pieces in front of a separator come before those behind it. -/
theorem splitOn_append (separator : Char) (before after : List Char) :
    splitOn separator (before ++ separator :: after) =
      splitOn separator before ++ splitOn separator after := by
  induction before with
  | nil => simp [splitOn]
  | cons c before ih =>
    rw [List.cons_append, splitOn, splitOn, ih]
    split
    · rfl
    · cases pieces : splitOn separator before with
      | nil => exact absurd pieces (splitOn_ne_nil separator before)
      | cons piece more => rfl

/-- What is left without the trailing elements that pass a test ends as the others do. -/
theorem getLast?_dropTrailing {α : Type} (test : α → Bool) (xs : List α) :
    (dropTrailing test xs).getLast? = (xs.filter fun x => !test x).getLast? := by
  rw [dropTrailing, List.getLast?_reverse, List.getLast?_eq_head?_reverse, ← List.filter_reverse]
  induction xs.reverse with
  | nil => rfl
  | cons x xs ih => by_cases passes : test x = true <;> simp [passes, ih]

/-- The name of a file is the last component of its path, if that is a name. -/
theorem fileName?_eq (path : FilePath) :
    path.fileName? = path.components.getLast?.bind fun
      | .named name => some name
      | _ => none := by
  rw [FilePath.fileName?, FilePath.solidPieces, getLast?_dropTrailing, FilePath.components]
  simp only [List.getLast?_append, List.getLast?_map]
  cases ((splitOn '/' path.leading.2).filter fun piece => !FilePath.isVoid piece).getLast? with
  | none =>
    simp only [Option.map_none, Option.none_or]
    split
    · rfl
    · split <;> rfl
  | some piece =>
    simp only [Option.map_some, Option.some_or, Option.bind_some, FilePath.pieceComponent]
    split <;> rfl

/-- What can be the name of a file. -/
structure IsFileName (name : List Char) : Prop where
  unbroken : '/' ∉ name
  solid : FilePath.isVoid name = false
  named : name ≠ ['.', '.']

/-- The part of a path behind its leading slash or dot ends as the path does. -/
private theorem leading_join {front name : List Char} (is : IsFileName name)
    (ends : front = [] ∨ ∃ more, front = more ++ ['/']) {path : FilePath}
    (text : path.text.toList = front ++ name) :
    ∃ body, path.leading.2 = body ++ name ∧ (body = [] ∨ ∃ more, body = more ++ ['/']) := by
  have solid := is.solid
  rw [FilePath.leading, text]
  rcases ends with rfl | ⟨more, rfl⟩
  · rw [List.nil_append]
    split
    · exact absurd is.unbroken (by simp)
    · cases solid
    · exact absurd is.unbroken (by simp)
    · exact ⟨[], rfl, .inl rfl⟩
  · rw [List.append_assoc, List.singleton_append]
    split <;> rename_i same
    · cases more with
      | nil =>
        cases same
        exact ⟨[], rfl, .inl rfl⟩
      | cons c more =>
        cases same
        exact ⟨more ++ ['/'], by simp, .inr ⟨more, rfl⟩⟩
    · have mark : '/' ∈ ['.'] := same ▸ by simp
      exact absurd mark (by decide)
    · cases more with
      | nil => cases same
      | cons c more =>
        obtain ⟨rfl, rest⟩ := List.cons.inj same
        exact ⟨more ++ ['/'], by simp [← rest], .inr ⟨more, rfl⟩⟩
    · exact ⟨more ++ ['/'], by simp, .inr ⟨more, rfl⟩⟩

/-- A name that is added to a path is the name of the file then. -/
theorem fileName?_join {name : String} (is : IsFileName name.toList) (path : FilePath) :
    (path.join name).fileName? = some name := by
  have unled : beginsWith name "/" = false := by
    rw [beginsWith, Bool.eq_false_iff]
    intro leads
    obtain ⟨rest, whole⟩ := List.isPrefixOf_iff_prefix.mp leads
    exact is.unbroken (by rw [← whole]; simp)
  -- In each case the name stands behind a slash or makes up the whole text.
  obtain ⟨front, ends, text⟩ : ∃ front, (front = [] ∨ ∃ more, front = more ++ ['/']) ∧
      (path.join name).text.toList = front ++ name.toList := by
    rw [FilePath.join, unled, if_neg (by simp)]
    split <;> rename_i closed
    · refine ⟨path.text.toList, ?_, by simp⟩
      rcases Bool.or_eq_true _ _ ▸ closed with empty | slash
      · exact .inl (by simpa using empty)
      · obtain ⟨more, whole⟩ := List.isSuffixOf_iff_suffix.mp slash
        exact .inr ⟨more, whole.symm⟩
    · exact ⟨path.text.toList ++ ['/'], .inr ⟨_, rfl⟩, by simp⟩
  obtain ⟨body, rest, ends⟩ := leading_join is ends text
  have pieces : ∃ front, splitOn '/' (path.join name).leading.2 = front ++ [name.toList] := by
    rw [rest]
    rcases ends with rfl | ⟨more, rfl⟩
    · exact ⟨[], by rw [List.nil_append, List.nil_append, splitOn_of_not_mem is.unbroken]⟩
    · refine ⟨splitOn '/' more, ?_⟩
      rw [List.append_assoc, List.singleton_append, splitOn_append, splitOn_of_not_mem is.unbroken]
  obtain ⟨front, pieces⟩ := pieces
  have notParent : (name.toList == ['.', '.']) = false := by simpa using is.named
  rw [FilePath.fileName?, FilePath.solidPieces, getLast?_dropTrailing, pieces, List.filter_append]
  simp [is.solid, notParent]

/-- A file name holds no slash. -/
theorem unbroken_of_fileName? {path : FilePath} {name : String} (named : path.fileName? = some name) :
    '/' ∉ name.toList := by
  rw [FilePath.fileName?, FilePath.solidPieces, getLast?_dropTrailing] at named
  split at named
  · cases named
  · rename_i piece last
    split at named
    · cases named
    · cases named
      rw [String.toList_ofList]
      exact not_mem_of_mem_splitOn (List.mem_filter.mp (List.mem_of_getLast? last)).1

/-- Paths with the same components have the same file name. -/
theorem fileName?_of_same {first second : FilePath} (same : first.same second = true) :
    first.fileName? = second.fileName? := by
  rw [fileName?_eq, fileName?_eq, eq_of_beq same]

theorem same_refl (path : FilePath) : path.same path = true :=
  beq_self_eq_true _

end Scaffold
