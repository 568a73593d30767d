import Mathlib.Tactic.Tauto
import Scaffold.Go.Identity
import Scaffold.Go.Printed
import Scaffold.Go.Resolution
import Scaffold.Proofs.Go.Lexeme

/-! How the text of a type begins tells of what kind the type is. -/

namespace Scaffold.Go

/-- Whether packages of different paths get different names to be qualified by. -/
structure IsQualifier (qualifier : PackageRef → String) : Prop where
  named (package : PackageRef) : isName (qualifier package).toList = true
  path {package other : PackageRef} : qualifier package = qualifier other →
    package.path = other.path

/-- Whether a name is that of no predeclared type. -/
def isChosenName (name : String) : Bool :=
  isName name.toList && (predeclared? name).isNone

mutual

/-- Whether a type is as a source can write it, without aliases. -/
def ResolvedType.isWritable : ResolvedType → Bool
  | .basic name => isBasicName name
  | .error | .any => true
  | .named type => type.isWritable
  | .param name => isChosenName name
  | .pointer elem | .slice elem | .chan _ elem => elem.isWritable
  | .array length elem => !length.isEmpty && !length.toList.contains ']' && elem.isWritable
  | .map key value => key.isWritable && value.isWritable
  | .func signature => signature.isWritable
  | .struct fields => writableFields fields
  | .interface elems => writableElems elems
  | .aliased _ _ _ | .invalid _ => false

/-- Whether a defined type has a name and arguments that can be written. -/
def NamedType.isWritable : NamedType → Bool
  | ⟨_, name, args, _⟩ => isName name.toList && writableTypes args

/-- Whether all of some types can be written. -/
def writableTypes : List ResolvedType → Bool
  | [] => true
  | first :: rest => first.isWritable && writableTypes rest

/-- Whether a signature can be written; a variadic one has a slice to spread. -/
def Signature.isWritable : Signature → Bool
  | ⟨params, results, variadic⟩ => writableVars params && writableVars results &&
    (!variadic || (params.getLast?.map fun last => last.type.isSlice).getD false)

/-- Whether variables can be written; they need no names. -/
def writableVars : List Var → Bool
  | [] => true
  | ⟨name, type⟩ :: rest =>
    (name.isEmpty || isName name.toList) && type.isWritable && writableVars rest

/-- Whether fields can be written. -/
def writableFields : List StructField → Bool
  | [] => true
  | ⟨name, type⟩ :: rest =>
    (name.map fun name => isName name.toList).getD true && type.isWritable && writableFields rest

/-- Whether interface elements can be written. -/
def writableElems : List InterfaceElem → Bool
  | [] => true
  | .method name signature :: rest =>
    isName name.toList && signature.isWritable && writableElems rest
  | .embedded type :: rest => type.isWritable && writableElems rest

end

attribute [simp] ResolvedType.isWritable NamedType.isWritable writableTypes Signature.isWritable
  writableVars writableFields writableElems

section Chars

variable (qualifier : PackageRef → String)

/-- The characters of a piece under some qualifiers. -/
def Piece.chars : Piece → List Char
  | .text fixed => fixed.toList
  | .name package declared => (qualifiedName (qualifier package) declared).toList

/-- The characters of some pieces. -/
def charsOf (pieces : List Piece) : List Char :=
  pieces.flatMap (Piece.chars qualifier)

/-- Pieces are written one behind the other. -/
theorem toList_writePieces (pieces : List Piece) :
    (Id.run (writePieces (fun package => pure (qualifier package)) pieces)).toList =
      charsOf qualifier pieces := by
  induction pieces with
  | nil => rfl
  | cons piece rest ih =>
    rw [charsOf, List.flatMap_cons, ← charsOf, ← ih]
    cases piece <;> exact String.toList_append

@[simp] theorem charsOf_nil : charsOf qualifier [] = [] := rfl

@[simp] theorem charsOf_text (text : String) (rest : List Piece) :
    charsOf qualifier (.text text :: rest) = text.toList ++ charsOf qualifier rest := rfl

@[simp] theorem charsOf_append (first second : List Piece) :
    charsOf qualifier (first ++ second) = charsOf qualifier first ++ charsOf qualifier second :=
  List.flatMap_append

/-- The characters of a type. -/
def ResolvedType.chars (type : ResolvedType) : List Char :=
  charsOf qualifier type.pieces

/-- The characters of a signature. -/
def Signature.chars (signature : Signature) : List Char :=
  charsOf qualifier signature.pieces

/-- The characters of an interface element. -/
def InterfaceElem.chars (elem : InterfaceElem) : List Char :=
  charsOf qualifier elem.pieces

/-- The characters of a field. -/
def StructField.chars (field : StructField) : List Char :=
  charsOf qualifier (fieldName field.name) ++ field.type.chars qualifier

/-- The characters of a variable, which may be a parameter that is spread. -/
def spreadChars (entry : Bool × Var) : List Char :=
  charsOf qualifier (leadingName entry.2.name) ++
    charsOf qualifier (spread entry.1 entry.2.type.pieces)

/-- Parameters, each with whether it is the one that is spread. -/
def spreadable (variadic : Bool) : List Var → List (Bool × Var)
  | [] => []
  | [last] => [(variadic && last.type.isSlice, last)]
  | first :: second :: rest => (false, first) :: spreadable variadic (second :: rest)

theorem charsOf_argPieces : ∀ types : List ResolvedType, charsOf qualifier (argPieces types) =
    joinWith ", ".toList (types.map (ResolvedType.chars qualifier))
  | [] => by simp [argPieces, joinWith]
  | [type] => by simp [argPieces, joinWith, ResolvedType.chars]
  | first :: second :: rest => by
    have others := charsOf_argPieces (second :: rest)
    simp only [List.map_cons] at others
    simp [argPieces, joinWith, ResolvedType.chars, others]

theorem charsOf_paramPieces (variadic : Bool) : ∀ params : List Var,
    charsOf qualifier (paramPieces variadic params) =
      joinWith ", ".toList ((spreadable variadic params).map (spreadChars qualifier))
  | [] => by simp [paramPieces, joinWith, spreadable]
  | [⟨name, type⟩] => by simp [paramPieces, joinWith, spreadable, spreadChars]
  | ⟨name, type⟩ :: second :: rest => by
    have others := charsOf_paramPieces variadic (second :: rest)
    obtain ⟨next, more, listed⟩ :
        ∃ next more, spreadable variadic (second :: rest) = next :: more := by
      cases rest <;> exact ⟨_, _, rfl⟩
    rw [listed, List.map_cons] at others
    simp [paramPieces, joinWith, spreadable, spreadChars, spread, listed, others]

theorem varPieces_eq : ∀ vars : List Var, varPieces vars = paramPieces false vars
  | [] => by rw [varPieces, paramPieces]
  | [⟨name, type⟩] => by simp [varPieces, paramPieces, spread]
  | ⟨name, type⟩ :: second :: rest => by rw [varPieces, paramPieces, varPieces_eq (second :: rest)]

theorem charsOf_fieldPieces : ∀ fields : List StructField, charsOf qualifier (fieldPieces fields) =
    joinWith "; ".toList (fields.map (StructField.chars qualifier))
  | [] => by simp [fieldPieces, joinWith]
  | [⟨name, type⟩] => by simp [fieldPieces, joinWith, StructField.chars, ResolvedType.chars]
  | ⟨name, type⟩ :: second :: rest => by
    have others := charsOf_fieldPieces (second :: rest)
    simp only [List.map_cons] at others
    simp [fieldPieces, joinWith, StructField.chars, ResolvedType.chars, others]

theorem charsOf_elemPieces : ∀ elems : List InterfaceElem, charsOf qualifier (elemPieces elems) =
    joinWith "; ".toList (elems.map (InterfaceElem.chars qualifier))
  | [] => by simp [elemPieces, joinWith]
  | [elem] => by simp [elemPieces, joinWith, InterfaceElem.chars]
  | first :: second :: rest => by
    have others := charsOf_elemPieces (second :: rest)
    simp only [List.map_cons] at others
    simp [elemPieces, joinWith, InterfaceElem.chars, others]

end Chars

section Openings

open Unicode (isIdentifierContinue)

/-- How a text begins: with a type of some kind, a name in front of one, a method, or dots. -/
inductive Lead
  | word
  | member
  | pointer
  | slice
  | array
  | map
  | chan (dir : ChanDir)
  | func
  | struct
  | interface
  | label
  | method
  | spread

/-- How a text begins that begins with a mark. -/
def markOpening : List Char → Option Lead
  | '*' :: _ => some .pointer
  | '[' :: ']' :: _ => some .slice
  | '[' :: _ => some .array
  | '<' :: _ => some (.chan .receive)
  | '.' :: _ => some .spread
  | _ => none

/-- What a chosen name begins, by what follows the name. -/
def nameOpening : List Char → Lead
  | ' ' :: _ => .label
  | '(' :: _ => .method
  | '.' :: _ => .member
  | _ => .word

/-- Which channel a text begins, by what follows the word for channels. -/
def chanOpening : List Char → Lead
  | '<' :: _ => .chan .send
  | _ => .chan .both

/-- How a text begins that is a word, perhaps an empty one, and a rest. -/
def wordOpening (word rest : List Char) : Option Lead :=
  if word = [] then markOpening rest
  else if word = "map".toList then some .map
  else if word = "chan".toList then some (chanOpening rest)
  else if word = "func".toList then some .func
  else if word = "struct".toList then some .struct
  else if word = "interface".toList then some .interface
  else some (nameOpening rest)

/-- How a text begins. -/
def openingOf (text : List Char) : Option Lead :=
  wordOpening (text.takeWhile isIdentifierContinue) (text.dropWhile isIdentifierContinue)

/-- How the text of a type begins. -/
def ResolvedType.opening : ResolvedType → Lead
  | .basic _ | .error | .any | .param _ | .invalid _ => .word
  | .named _ | .aliased _ _ _ => .member
  | .pointer _ => .pointer
  | .slice _ => .slice
  | .array _ _ => .array
  | .map _ _ => .map
  | .chan dir _ => .chan dir
  | .func _ => .func
  | .struct _ => .struct
  | .interface _ => .interface

/-- No type begins as a name in front of a type, a method or dots do. -/
theorem ResolvedType.opening_ne (type : ResolvedType) :
    type.opening ≠ .label ∧ type.opening ≠ .method ∧ type.opening ≠ .spread := by
  cases type <;> simp [opening]

/-- A text that no type goes on with. -/
def Stops (rest : List Char) : Prop :=
  ∀ c, rest.head? = some c → c ∈ [',', ';', ')', ']', '\x7d']

/-- A text that closes a list. -/
def Closes (rest : List Char) : Prop :=
  ∃ c, rest.head? = some c ∧ c ∈ [')', ']', '\x7d']

/-- A text that does not continue a word. -/
def EndsWord (rest : List Char) : Prop :=
  ∀ c, rest.head? = some c → isIdentifierContinue c = false

theorem Closes.stops {rest : List Char} (closes : Closes rest) : Stops rest := by
  obtain ⟨c, head, member⟩ := closes
  intro d here
  obtain rfl := Option.some.inj (head.symm.trans here)
  simp only [List.mem_cons, List.not_mem_nil, or_false] at member ⊢
  tauto

/-- What goes on with a type does not stop it. -/
theorem Stops.ne_cons {rest : List Char} (stops : Stops rest) {c : Char}
    (passes : c ∉ [',', ';', ')', ']', '\x7d']) (text : List Char) : rest ≠ c :: text := by
  rintro rfl
  exact passes (stops c rfl)

theorem closes_cons {c : Char} (rest : List Char)
    (closing : c ∈ [')', ']', '\x7d'] := by decide) : Closes (c :: rest) :=
  ⟨c, rfl, closing⟩

/-- What stops a type is no part of a word. -/
theorem not_continue_of_stop {c : Char} (stop : c ∈ [',', ';', ')', ']', '\x7d']) :
    isIdentifierContinue c = false := by
  have all : [',', ';', ')', ']', '\x7d'].all (fun c => !isIdentifierContinue c) = true := by decide
  simpa using List.all_eq_true.mp all c stop

theorem Stops.endsWord {rest : List Char} (stops : Stops rest) : EndsWord rest :=
  fun c head => not_continue_of_stop (stops c head)

theorem endsWord_cons {c : Char} (ends : isIdentifierContinue c = false) (rest : List Char) :
    EndsWord (c :: rest) := by
  rintro d ⟨⟩
  exact ends

/-- Only letters and digits are in a name, and it is no keyword. -/
theorem letters_of_isName {name : List Char} (is : isName name = true) :
    name ≠ [] ∧ (∀ c ∈ name, isIdentifierContinue c = true) ∧ String.ofList name ∉ keywords := by
  cases name with
  | nil => cases is
  | cons c rest =>
    simp only [isName, Bool.and_eq_true, List.all_eq_true, Bool.not_eq_true'] at is
    obtain ⟨⟨start, continued⟩, free⟩ := is
    refine ⟨List.cons_ne_nil _ _, List.forall_mem_cons.mpr
      ⟨Unicode.isIdentifierContinue_of_start start, continued⟩, ?_⟩
    simpa using free

/-- A word is taken whole in front of what does not continue it. -/
theorem openingOf_word {word rest : List Char} (letters : ∀ c ∈ word, isIdentifierContinue c = true)
    (ends : EndsWord rest) : openingOf (word ++ rest) = wordOpening word rest := by
  rw [openingOf, takeWhile_run letters ends, dropWhile_run letters ends]

theorem openingOf_name {name rest : List Char} (is : isName name = true) (ends : EndsWord rest) :
    openingOf (name ++ rest) = some (nameOpening rest) := by
  obtain ⟨filled, letters, free⟩ := letters_of_isName is
  -- A name is none of the words that begin a type.
  have other : ∀ keyword : String, keyword ∈ keywords → name ≠ keyword.toList := by
    rintro keyword reserved rfl
    rw [String.ofList_toList] at free
    exact free reserved
  rw [openingOf_word letters ends, wordOpening, if_neg filled, if_neg (other _ (by decide)),
    if_neg (other _ (by decide)), if_neg (other _ (by decide)), if_neg (other _ (by decide)),
    if_neg (other _ (by decide))]

/-- A mark that is no part of a word stands in front of a text by itself. -/
theorem openingOf_mark {c : Char} (ends : isIdentifierContinue c = false) (rest : List Char) :
    openingOf (c :: rest) = markOpening (c :: rest) :=
  openingOf_word (List.forall_mem_nil _) (endsWord_cons ends rest)

/-- What closes a list begins nothing. -/
theorem openingOf_closes {rest : List Char} (closes : Closes rest) : openingOf rest = none := by
  have ends := closes.stops.endsWord
  obtain ⟨c, head, member⟩ := closes
  obtain ⟨more, rfl⟩ := List.head?_eq_some_iff.mp head
  rw [openingOf_mark (ends c rfl)]
  simp only [List.mem_cons, List.not_mem_nil, or_false] at member
  rcases member with rfl | rfl | rfl <;> rfl

end Openings

section Written

open ResolvedType

variable (qualifier : PackageRef → String)

/-- The characters of type arguments between their brackets, if there are any. -/
def argChars (args : List ResolvedType) : List Char :=
  if args.isEmpty then []
  else '[' :: joinWith ", ".toList (args.map (ResolvedType.chars qualifier)) ++ [']']

/-- The characters of a channel's element, in parentheses where they are needed. -/
def elemChars (dir : ChanDir) (elem : ResolvedType) : List Char :=
  if elem.takesArrow dir then '(' :: elem.chars qualifier ++ [')'] else elem.chars qualifier

/-- The characters of variables with commas between them. -/
def listChars (variadic : Bool) (vars : List Var) : List Char :=
  joinWith ", ".toList ((spreadable variadic vars).map (spreadChars qualifier))

/-- The type of results that are a single one without a name, which needs no parentheses. -/
def bareResult? : List Var → Option ResolvedType
  | [⟨name, type⟩] => if name.isEmpty then some type else none
  | _ => none

/-- The characters of results, in parentheses where they are needed. -/
def resultText (results : List Var) : List Char :=
  match bareResult? results with
  | some type => type.chars qualifier
  | none => '(' :: listChars qualifier false results ++ [')']

/-- The characters of results behind the parameters. -/
def resultChars (results : List Var) : List Char :=
  if results.isEmpty then [] else ' ' :: resultText qualifier results

theorem chars_named (qualifies : IsQualifier qualifier)
    (package : PackageRef) (name : String) (args : List ResolvedType) (shape : Shape) :
    (ResolvedType.named ⟨package, name, args, shape⟩).chars qualifier =
      (qualifier package).toList ++ '.' :: (name.toList ++ argChars qualifier args) := by
  -- A qualifier is a name, so it is written with a dot.
  have filled : (qualifier package).isEmpty = false := by
    rw [← Bool.not_eq_true, String.isEmpty_iff]
    intro empty
    have is := qualifies.named package
    rw [empty] at is
    cases is
  have whole (rest : List Piece) : charsOf qualifier (.name package name :: rest) =
      (qualifier package).toList ++ '.' :: (name.toList ++ charsOf qualifier rest) := by
    rw [charsOf, List.flatMap_cons, Piece.chars, qualifiedName, filled]
    simp [charsOf]
  cases args with
  | nil => simp [ResolvedType.chars, pieces, NamedType.pieces, whole, argChars]
  | cons first rest =>
    simp [ResolvedType.chars, pieces, NamedType.pieces, whole, argChars, charsOf_argPieces]

theorem chars_basic (name : String) : (basic name).chars qualifier = name.toList := by
  simp [chars, pieces]

theorem chars_error : error.chars qualifier = "error".toList := by
  simp [chars, pieces]

theorem chars_any : any.chars qualifier = "any".toList := by
  simp [chars, pieces]

theorem chars_param (name : String) : (param name).chars qualifier = name.toList := by
  simp [chars, pieces]

theorem chars_pointer (elem : ResolvedType) :
    (pointer elem).chars qualifier = '*' :: elem.chars qualifier := by
  simp [chars, pieces]

theorem chars_slice (elem : ResolvedType) :
    (slice elem).chars qualifier = '[' :: ']' :: elem.chars qualifier := by
  simp [chars, pieces]

theorem chars_array (length : String) (elem : ResolvedType) : (array length elem).chars qualifier =
    '[' :: (length.toList ++ ']' :: elem.chars qualifier) := by
  simp [chars, pieces]

theorem chars_map (key value : ResolvedType) : (map key value).chars qualifier =
    "map".toList ++ '[' :: (key.chars qualifier ++ ']' :: value.chars qualifier) := by
  simp [chars, pieces]

theorem chars_chan (dir : ChanDir) (elem : ResolvedType) :
    (chan dir elem).chars qualifier = dir.opening.toList ++ elemChars qualifier dir elem := by
  rw [chars, pieces, charsOf_text, enclosed, elemChars]
  split <;> simp [chars]

theorem chars_func (signature : Signature) :
    (func signature).chars qualifier = "func".toList ++ signature.chars qualifier := by
  simp [chars, pieces, Signature.chars]

theorem chars_struct (fields : List StructField) : (struct fields).chars qualifier =
    "struct".toList ++ '\x7b' ::
      (joinWith "; ".toList (fields.map (StructField.chars qualifier)) ++ ['\x7d']) := by
  simp [chars, pieces, charsOf_fieldPieces]

theorem chars_interface (elems : List InterfaceElem) : (interface elems).chars qualifier =
    "interface".toList ++ '\x7b' ::
      (joinWith "; ".toList (elems.map (InterfaceElem.chars qualifier)) ++ ['\x7d']) := by
  simp [chars, pieces, charsOf_elemPieces]

theorem charsOf_resultPieces : ∀ results : List Var,
    charsOf qualifier (resultPieces results) = resultChars qualifier results
  | [] => by simp [resultPieces, resultChars]
  | [⟨name, type⟩] => by
    rw [resultPieces]
    split
    · simp_all [resultChars, resultText, bareResult?, chars]
    · simp_all [resultChars, resultText, bareResult?, listChars, spreadable, spreadChars, spread,
        joinWith]
  | first :: second :: rest => by
    simp [resultPieces, resultChars, resultText, bareResult?, varPieces_eq, charsOf_paramPieces,
      listChars]

theorem chars_signature (params results : List Var) (variadic : Bool) :
    (Signature.mk params results variadic).chars qualifier =
      '(' :: (listChars qualifier variadic params ++ ')' :: resultChars qualifier results) := by
  simp [Signature.chars, Signature.pieces, charsOf_paramPieces, charsOf_resultPieces, listChars]

end Written

section Types

open ResolvedType
open Unicode (isIdentifierContinue)

variable {qualifier : PackageRef → String}
  (qualifies : IsQualifier qualifier)

/-- Predeclared names are names. -/
theorem isName_of_isBasicName {name : String} (basic : isBasicName name = true) :
    isName name.toList = true := by
  have all : ∀ name ∈ basicNames, isName name.toList = true := by decide
  exact all name (List.contains_iff_mem.mp basic)

include qualifies in
/-- The text of a type begins as a type of its kind does. -/
theorem openingOf_chars {type : ResolvedType} (formed : type.isWritable = true) {rest : List Char}
    (stops : Stops rest) : openingOf (type.chars qualifier ++ rest) = some type.opening := by
  -- Behind a name that is a whole type stands no mark that would make more of it.
  have word : ∀ {name : String}, isName name.toList = true →
      openingOf (name.toList ++ rest) = some .word := by
    intro name is
    rw [openingOf_name is stops.endsWord]
    cases rest with
    | nil => rfl
    | cons c rest =>
      have member := stops c rfl
      simp only [List.mem_cons, List.not_mem_nil, or_false] at member
      rcases member with rfl | rfl | rfl | rfl | rfl <;> rfl
  have keyword : ∀ (text : String) {c : Char} (more : List Char),
      text.toList.all isIdentifierContinue = true → isIdentifierContinue c = false →
      openingOf (text.toList ++ c :: more) = wordOpening text.toList (c :: more) :=
    fun text c more letters ends =>
      openingOf_word (List.all_eq_true.mp letters) (endsWord_cons ends more)
  cases type with
  | basic name => rw [chars_basic]; exact word (isName_of_isBasicName formed)
  | error => rw [chars_error]; exact word (by decide)
  | any => rw [chars_any]; exact word (by decide)
  | param name =>
    rw [chars_param]
    rw [isWritable, isChosenName, Bool.and_eq_true] at formed
    exact word formed.1
  | named type =>
    obtain ⟨package, name, args, shape⟩ := type
    rw [chars_named qualifier qualifies, List.append_assoc, List.cons_append,
      openingOf_name (qualifies.named package) (endsWord_cons (by decide) _)]
    rfl
  | aliased => rw [isWritable] at formed; cases formed
  | invalid => rw [isWritable] at formed; cases formed
  | pointer elem => rw [chars_pointer]; exact openingOf_mark (by decide) _
  | slice elem => rw [chars_slice]; exact openingOf_mark (by decide) _
  | array length elem =>
    rw [isWritable, Bool.and_eq_true, Bool.and_eq_true] at formed
    obtain ⟨⟨filled, free⟩, -⟩ := formed
    rw [chars_array, List.cons_append, openingOf_mark (by decide)]
    -- A length is not empty and has no bracket, so an array does not begin as a slice.
    cases text : length.toList with
    | nil => simp [String.toList_eq_nil_iff.mp text] at filled
    | cons c more =>
      rw [text] at free
      rw [List.append_assoc, List.cons_append, markOpening]
      · rfl
      · rintro _ same
        obtain ⟨rfl, -⟩ := List.cons.inj same
        simp at free
  | map key value =>
    rw [chars_map, List.append_assoc, List.cons_append, keyword _ _ (by decide) (by decide)]
    rfl
  | chan dir elem =>
    rw [chars_chan, List.append_assoc]
    cases dir with
    | both => exact keyword "chan" _ (by decide) (by decide)
    | send => exact keyword "chan" _ (by decide) (by decide)
    | receive => exact openingOf_mark (by decide) _
  | func signature =>
    obtain ⟨params, results, variadic⟩ := signature
    rw [chars_func, chars_signature, List.append_assoc, List.cons_append,
      keyword _ _ (by decide) (by decide)]
    rfl
  | struct fields =>
    rw [chars_struct, List.append_assoc, List.cons_append, keyword _ _ (by decide) (by decide)]
    rfl
  | interface elems =>
    rw [chars_interface, List.append_assoc, List.cons_append, keyword _ _ (by decide) (by decide)]
    rfl

include qualifies in
/-- Types with the same text are of the same kind. -/
theorem opening_eq {a b : ResolvedType} (formed : a.isWritable = true)
    (formed' : b.isWritable = true) {rest rest' : List Char} (stops : Stops rest)
    (stops' : Stops rest') (equal : a.chars qualifier ++ rest = b.chars qualifier ++ rest') :
    a.opening = b.opening :=
  Option.some.inj ((openingOf_chars qualifies formed stops).symm.trans
    (equal ▸ openingOf_chars qualifies formed' stops'))

include qualifies in
theorem not_closes_chars {type : ResolvedType} (formed : type.isWritable = true) {rest : List Char}
    (stops : Stops rest) : ¬Closes (type.chars qualifier ++ rest) := by
  intro closes
  have none := openingOf_closes closes
  rw [openingOf_chars qualifies formed stops] at none
  cases none

include qualifies in
/-- A parenthesis begins no type. -/
theorem chars_ne_parenthesis {type : ResolvedType} (formed : type.isWritable = true)
    {rest text : List Char} (stops : Stops rest) : type.chars qualifier ++ rest ≠ '(' :: text := by
  intro equal
  have opens := openingOf_chars qualifies formed stops
  rw [equal] at opens
  cases opens

include qualifies in
theorem bare_chars {type : ResolvedType} (formed : type.isWritable = true) {rest : List Char}
    (stops : Stops rest) : openingOf (type.chars qualifier ++ rest) ≠ some .label := by
  rw [openingOf_chars qualifies formed stops]
  simpa using type.opening_ne.1

end Types

end Scaffold.Go
