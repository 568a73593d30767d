import Scaffold.Go.SourceFile
import Scaffold.Imports.Block
import Scaffold.Text.Edit

/-! Edits that add imports to a Go file and leave everything else where it is. -/

namespace Scaffold

/-- Why imports cannot be added to a file. -/
inductive MergeError
  | noPackageClause
  deriving DecidableEq, Repr

/-- The wording of a failed merge. -/
def MergeError.message : MergeError → String
  | .noPackageClause => "file has no package clause"

/-- An import that is there already, with the extent of the lines it stands on. -/
structure PlacedSpec where
  path : String
  group : ImportGroup
  lineStart : Nat
  lineStop : Nat
  deriving DecidableEq, Repr

/-- How a new line joins its surroundings: inside its group, or as a group before or behind. -/
inductive Placement
  | within
  | groupBefore
  | groupBehind
  deriving DecidableEq, Repr

/-- The order of placements at one offset. -/
def Placement.rank : Placement → Nat
  | .within => 0
  | .groupBefore => 1
  | .groupBehind => 2

/-- A new import line and the place it goes to. -/
structure PlacedLine where
  offset : Nat
  placement : Placement
  group : ImportGroup
  line : String
  deriving DecidableEq, Repr

/-- The start of the line an offset lies on. -/
def LineIndex.lineStart (index : LineIndex) (offset : Nat) : Nat :=
  (index.starts.takeWhile (· ≤ offset)).getLastD 0

/-- The start of the line behind an offset, or the end of the text. -/
def LineIndex.lineStop (index : LineIndex) (offset : Nat) : Nat :=
  (index.starts.find? (offset < ·)).getD index.length

/-- An import of a file with its group and lines. -/
def placedSpec (index : LineIndex) (setting : Option String) (spec : Go.ImportSpec) :
    PlacedSpec :=
  ⟨spec.path, importGroup setting spec.path, index.lineStart spec.start, index.lineStop spec.stop⟩

/-- The place of a new import among those that are there. -/
def placeImport (setting : Option String) (specs : List PlacedSpec) (close : Nat)
    (needed : Import) : PlacedLine :=
  let group := importGroup setting needed.path
  let line := specLine needed
  match (specs.filter fun spec => spec.group == group).getLast? with
  | some last =>
    -- Inside its group it stands before the first greater path.
    let offset := match specs.find? fun spec => spec.group == group && needed.path < spec.path with
      | some next => next.lineStart
      | none => last.lineStop
    ⟨offset, .within, group, line⟩
  | none =>
    match specs.find? fun spec => group.rank < spec.group.rank with
    | some next => ⟨next.lineStart, .groupBefore, group, line⟩
    | none => ⟨(specs.getLast?.map PlacedSpec.lineStop).getD close, .groupBehind, group, line⟩

/-- Whether a new line may come before another: by offset, then placement, then group. -/
def PlacedLine.mayPrecede (first second : PlacedLine) : Bool :=
  if first.offset == second.offset then
    if first.placement == second.placement then decide (first.group.rank ≤ second.group.rank)
    else decide (first.placement.rank < second.placement.rank)
  else decide (first.offset < second.offset)

/-- Neighbouring elements gathered while a test holds between them. -/
def gatherRuns {α : Type} (same : α → α → Bool) : List α → List (List α)
  | [] => []
  | x :: rest =>
    match gatherRuns same rest with
    | (y :: run) :: runs => if same x y then (x :: y :: run) :: runs else [x] :: (y :: run) :: runs
    | runs => [x] :: runs

/-- The lines of one new group, set off from the group they come before or behind. -/
def groupText (placement : Placement) (lines : List PlacedLine) : String :=
  let text := String.join (lines.map PlacedLine.line)
  match placement with
  | .within => text
  | .groupBefore => text ++ "\n"
  | .groupBehind => "\n" ++ text

/-- The one edit that puts new lines at their common offset. -/
def runEdit (run : List PlacedLine) : Option Edit :=
  run.head?.map fun first =>
    .insertion first.offset (String.join ((gatherRuns (fun one other => one.group == other.group)
      run).map (groupText first.placement)))

/-- Edits that put imports between the parentheses of a declaration. -/
def blockEdits (setting : Option String) (specs : List PlacedSpec) (close : Nat)
    (imports : List Import) : List Edit :=
  -- Without a line of its own for every import, the new ones go before the closing parenthesis.
  if specs.isEmpty || specs.any fun spec => close < spec.lineStop then
    [.insertion close (String.join (imports.map fun needed => "\n\t" ++ needed.spec) ++ "\n")]
  else
    let placed := sortOrdered PlacedLine.mayPrecede
      (imports.map (placeImport setting specs close))
    (gatherRuns (fun one other => one.offset == other.offset && one.placement == other.placement)
      placed).filterMap runEdit

/-- A text without the line breaks at its end. -/
def trimEndBreaks (text : String) : String :=
  String.ofList (dropTrailing (· == '\n') text.toList)

/-- A text without the line breaks at its two ends. -/
def trimBreaks (text : String) : String :=
  String.ofList (dropTrailing (· == '\n') (text.toList.dropWhile (· == '\n')))

/-- The imports that a file lacks, sorted and without repeats. -/
def missingImports (file : Go.SourceFile) (imports : List Import) : List Import :=
  dropRepeats (Import.sorted (imports.filter fun needed =>
    !file.imports.any fun spec => spec.path == needed.path && spec.name == needed.name))

/-- The last import declaration with parentheses, and where it closes. -/
def lastGroup? (file : Go.SourceFile) : Option (Go.ImportDecl × Nat) :=
  (file.importDecls.filterMap fun decl => decl.close.map fun close => (decl, close)).getLast?

/-- Edits that add imports to a file; those it has already are left out. -/
def mergeImports (setting : Option String) (file : Go.SourceFile) (imports : List Import) :
    Except MergeError (List Edit) :=
  match missingImports file imports with
  | [] => .ok []
  | missing =>
    match lastGroup? file with
    | some (decl, close) =>
      .ok (blockEdits setting (decl.specs.map (placedSpec file.lines setting)) close missing)
    | none =>
      match file.importDecls.getLast? with
      | some decl =>
        -- A declaration without parentheses makes room for the new imports.
        let held := decl.specs.map fun spec => ⟨spec.path, spec.name⟩
        .ok [⟨decl.start, decl.stop, trimBreaks (importBlock setting (held ++ missing))⟩]
      | none =>
        match file.package? with
        | none => .error .noPackageClause
        | some clause =>
          .ok [.insertion clause.stop ("\n" ++ trimEndBreaks (importBlock setting missing))]

/-- The edits that add imports to a source text. -/
def importEdits (setting : Option String) (text : String) (imports : List Import) :
    Except MergeError (List Edit) :=
  mergeImports setting (.ofText ⟨"imports.go"⟩ text) imports

end Scaffold
