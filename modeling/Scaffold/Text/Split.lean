/-! Text divided at a separating character and put together again. -/

namespace Scaffold

/-- The pieces between the separators; there is always at least one piece. -/
def splitOn (separator : Char) : List Char → List (List Char)
  | [] => [[]]
  | c :: rest =>
    if c == separator then [] :: splitOn separator rest
    else match splitOn separator rest with
      | [] => [[c]]
      | piece :: more => (c :: piece) :: more

/-- The pieces put together with a text between each two of them. -/
def joinWith (between : List Char) : List (List Char) → List Char
  | [] => []
  | [piece] => piece
  | piece :: next :: more => piece ++ between ++ joinWith between (next :: more)

/-- The strings put together with a text between each two of them. -/
def joinStrings (between : String) (pieces : List String) : String :=
  String.ofList (joinWith between.toList (pieces.map String.toList))

/-- Cuts the longest run of characters satisfying a test off the end. -/
def dropTrailing {α : Type} (test : α → Bool) (xs : List α) : List α :=
  (xs.reverse.dropWhile test).reverse

/-- What follows a leading text, if the text leads. -/
def afterPrefix? (lead text : List Char) : Option (List Char) :=
  if lead.isPrefixOf text then some (text.drop lead.length) else none

/-- What precedes a trailing text, if the text trails. -/
def beforeSuffix? (trail text : List Char) : Option (List Char) :=
  if trail.isSuffixOf text then some (text.take (text.length - trail.length)) else none

/-- Whether a string begins with another. -/
def beginsWith (text lead : String) : Bool :=
  lead.toList.isPrefixOf text.toList

/-- Whether a string ends with another. -/
def finishesWith (text trail : String) : Bool :=
  trail.toList.isSuffixOf text.toList

/-- Whether a text occurs anywhere inside another. -/
def occursIn (needle : List Char) : List Char → Bool
  | [] => needle.isEmpty
  | c :: rest => needle.isPrefixOf (c :: rest) || occursIn needle rest

/-- There is always at least one piece. -/
theorem splitOn_ne_nil (separator : Char) (text : List Char) : splitOn separator text ≠ [] := by
  -- Every branch of the recursion builds a nonempty list.
  cases text with
  | nil => simp [splitOn]
  | cons c rest =>
    simp only [splitOn]
    split
    · simp
    · split <;> simp

/-- Joining the pieces with their separator gives the text back. -/
theorem joinWith_splitOn (separator : Char) (text : List Char) :
    joinWith [separator] (splitOn separator text) = text := by
  -- A separator opens a new piece, any other character extends the first one.
  induction text with
  | nil => rfl
  | cons c rest ih =>
    simp only [splitOn]
    cases pieces : splitOn separator rest with
    | nil => exact absurd pieces (splitOn_ne_nil separator rest)
    | cons piece more =>
      rw [pieces] at ih
      split
      · rename_i same
        simp only [beq_iff_eq] at same
        subst same
        simp [joinWith, ih]
      · cases more <;> simp_all [joinWith]

/-- Every piece stands in the pieces put together. -/
theorem infix_joinWith (between : List Char) {piece : List Char} {pieces : List (List Char)}
    (member : piece ∈ pieces) : piece <:+: joinWith between pieces := by
  induction pieces with
  | nil => cases member
  | cons first rest ih =>
    cases rest with
    | nil =>
      obtain rfl := List.mem_singleton.mp member
      exact List.infix_rfl
    | cons next more =>
      rw [joinWith, List.append_assoc]
      rcases List.mem_cons.mp member with rfl | later
      · exact (List.prefix_append _ _).isInfix
      · exact (ih later).trans ((List.suffix_append _ _).trans (List.suffix_append _ _)).isInfix

end Scaffold
