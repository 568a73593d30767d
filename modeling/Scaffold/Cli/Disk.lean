import Scaffold.Cli.System

/-! A directory with everything inside it as a value, in which a run can take place. -/

namespace Scaffold.Cli

/-- What stands at a place inside the directory. -/
inductive Node
  | directory
  /-- A file with its text, none if its bytes are no text. -/
  | file (text : Option String)
  deriving DecidableEq, Repr

/-- What the directory holds, by the names that lead to it. -/
structure Disk where
  entries : List (List String × Node)
  deriving DecidableEq, Repr, Inhabited

namespace Disk

/-- What stands at a place; a directory is there as soon as something lies inside it. -/
def node? (disk : Disk) (names : List String) : Option Node :=
  match disk.entries.lookup names with
  | some node => some node
  | none =>
    if names.isEmpty || disk.entries.any fun (other, _) => names.isPrefixOf other then
      some .directory
    else none

/-- Puts something at a place. -/
def put (disk : Disk) (names : List String) (node : Node) : Disk :=
  ⟨(disk.entries.filter fun (other, _) => other != names) ++ [(names, node)]⟩

/-- Follows the pieces of a path, all but the last of which must lead through directories. -/
def follow (disk : Disk) (names : List String) :
    List (List Char) → Except SystemError (List String)
  | [] => .ok names
  | piece :: rest =>
    match disk.node? names with
    | none => .error .missing
    | some (.file _) => .error .notDirectory
    | some .directory =>
      if FilePath.isVoid piece then follow disk names rest
      else if piece == ['.', '.'] then
        -- Nothing is known of what lies above the directory.
        if names.isEmpty then .error .missing else follow disk names.dropLast rest
      else follow disk (names ++ [String.ofList piece]) rest

/-- The place a path leads to, which may be empty. -/
def locate (disk : Disk) (path : FilePath) : Except SystemError (List String) :=
  if path.text.isEmpty || beginsWith path.text "/" then .error .missing
  else disk.follow [] (splitOn '/' path.text.toList)

/-- What a path leads to. -/
def find (disk : Disk) (path : FilePath) : Except SystemError (List String × Node) := do
  let names ← disk.locate path
  match disk.node? names with
  | none => throw .missing
  | some node => return (names, node)

/-- The text of a file. -/
def read (disk : Disk) (path : FilePath) : Except SystemError String := do
  match ← disk.find path with
  | (_, .directory) => throw .isDirectory
  | (_, .file none) => throw .notText
  | (_, .file (some text)) => return text

/-- The files directly inside a directory. -/
def list (disk : Disk) (path : FilePath) : Except SystemError (List FilePath) := do
  match ← disk.find path with
  | (_, .file _) => throw .notDirectory
  | (names, .directory) =>
    return disk.entries.filterMap fun (other, node) =>
      match node, other.getLast? with
      | .file _, some name => if other.dropLast == names then some (path.join name) else none
      | _, _ => none

/-- The disk with a text written to a file. -/
def write (disk : Disk) (path : FilePath) (text : String) : Except SystemError Disk := do
  let names ← disk.locate path
  match disk.node? names with
  | some .directory => throw .isDirectory
  | _ => return disk.put names (.file (some text))

/-- The disk with the directories on a path made, as far as they are missing. -/
def makeAlong (disk : Disk) (names : List String) : List (List Char) → Except SystemError Disk
  | [] => .ok disk
  | piece :: rest =>
    if FilePath.isVoid piece then makeAlong disk names rest
    else if piece == ['.', '.'] then
      if names.isEmpty then .error .missing else makeAlong disk names.dropLast rest
    else
      let inner := names ++ [String.ofList piece]
      match disk.node? inner with
      | some (.file _) => .error .notDirectory
      | some .directory => makeAlong disk inner rest
      | none => makeAlong (disk.put inner .directory) inner rest

/-- The disk with a directory and the directories it lies in made. -/
def makeDirectory (disk : Disk) (path : FilePath) : Except SystemError Disk :=
  if beginsWith path.text "/" then .error .missing
  else disk.makeAlong [] (splitOn '/' path.text.toList)

/-- A step that changes the disk if it succeeds. -/
def change (step : Disk → Except SystemError Disk) : StateM Disk (Except SystemError Unit) := do
  match step (← get) with
  | .error error => return .error error
  | .ok disk =>
    set disk
    return .ok ()

/-- The disk as a system with some variables. -/
def system (settings : List (String × String)) : System (StateM Disk) where
  read path := do return (← get).read path
  list path := do return (← get).list path
  isPresent path := do return ((← get).find path).toOption.isSome
  write path text := change fun disk => disk.write path text
  makeDirectory path := change fun disk => disk.makeDirectory path
  setting name := settings.lookup name

end Disk

end Scaffold.Cli
