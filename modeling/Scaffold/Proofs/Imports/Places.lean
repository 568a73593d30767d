import Scaffold.Proofs.Go.File
import Scaffold.Proofs.Text.Lines

/-! The edits that a merge of imports is made of, and the places they are made at. -/

namespace Scaffold

open Go

section Runs

variable {α β : Type} {same : α → α → Bool}

/-- Gathering loses no element. -/
theorem flatten_gatherRuns (same : α → α → Bool) (xs : List α) :
    (gatherRuns same xs).flatten = xs := by
  induction xs with
  | nil => rfl
  | cons x xs ih =>
    rw [gatherRuns]
    split
    · rename_i y run runs gathered
      rw [gathered] at ih
      split <;> rw [← ih] <;> rfl
    · rw [List.flatten_cons, ih]
      rfl

/-- No run is empty. -/
theorem ne_nil_of_mem_gatherRuns {xs run : List α} (member : run ∈ gatherRuns same xs) :
    run ≠ [] := by
  induction xs generalizing run with
  | nil => cases member
  | cons x xs ih =>
    rw [gatherRuns] at member
    split at member
    · rename_i y others runs gathered
      rw [gathered] at ih
      split at member
      · rcases List.mem_cons.mp member with rfl | later
        · exact List.cons_ne_nil _ _
        · exact ih (List.mem_cons_of_mem _ later)
      · rcases List.mem_cons.mp member with rfl | later
        · exact List.cons_ne_nil _ _
        · exact ih later
    · rcases List.mem_cons.mp member with rfl | later
      · exact List.cons_ne_nil _ _
      · exact ih later

/-- Elements are gathered by what is said of them. -/
theorem gatherRuns_map (same : β → β → Bool) (f : α → β) (xs : List α) :
    gatherRuns same (xs.map f) =
      (gatherRuns (fun x y => same (f x) (f y)) xs).map (List.map f) := by
  induction xs with
  | nil => rfl
  | cons x xs ih =>
    rw [List.map_cons, gatherRuns, gatherRuns, ih]
    cases gathered : gatherRuns (fun x y => same (f x) (f y)) xs with
    | nil => rfl
    | cons run runs =>
      cases run with
      | nil => exact absurd rfl (ne_nil_of_mem_gatherRuns (gathered ▸ List.mem_cons_self))
      | cons y run =>
        simp only [List.map_cons]
        split <;> rfl

/-- Elements are sorted by what is said of them. -/
theorem sortOrdered_map (le : β → β → Bool) (f : α → β) (xs : List α) :
    sortOrdered le (xs.map f) = (sortOrdered (fun x y => le (f x) (f y)) xs).map f := by
  have insert : ∀ (x : α) (ys : List α), insertOrdered le (f x) (ys.map f) =
      (insertOrdered (fun x y => le (f x) (f y)) x ys).map f := by
    intro x ys
    induction ys with
    | nil => rfl
    | cons y ys ih =>
      rw [List.map_cons, insertOrdered, insertOrdered, ih]
      split <;> rfl
  induction xs with
  | nil => rfl
  | cons x xs ih =>
    rw [sortOrdered] at ih
    rw [List.map_cons, sortOrdered, List.foldr_cons, ih, insert]
    rfl

end Runs

variable {setting : Option String} {specs : List PlacedSpec} {close : Nat}

/-- A new import stands at the start or behind the end of the lines of one that is there. -/
theorem offset_placeImport (setting : Option String) (specs : List PlacedSpec) (close : Nat)
    (needed : Import) : (∃ spec ∈ specs, (placeImport setting specs close needed).offset =
      spec.lineStart ∨ (placeImport setting specs close needed).offset = spec.lineStop) ∨
      specs = [] ∧ (placeImport setting specs close needed).offset = close := by
  rw [placeImport]
  split
  · rename_i last found
    have member := (List.mem_filter.mp (List.mem_of_getLast? found)).1
    refine .inl ?_
    split
    · rename_i next next?
      exact ⟨next, List.mem_of_find?_eq_some next?, .inl rfl⟩
    · exact ⟨last, member, .inr rfl⟩
  · split
    · rename_i next next?
      exact .inl ⟨next, List.mem_of_find?_eq_some next?, .inl rfl⟩
    · cases final : specs.getLast? with
      | none => exact .inr ⟨List.getLast?_eq_none_iff.mp final, rfl⟩
      | some last => exact .inl ⟨last, List.mem_of_getLast? final, .inr rfl⟩

/-- Whether some import of a declaration has no line of its own. -/
def isInline (specs : List PlacedSpec) (close : Nat) : Bool :=
  specs.isEmpty || specs.any fun spec => close < spec.lineStop

/-- The text that puts new lines at their place, in groups. -/
def runText (placement : Placement) (run : List PlacedLine) : String :=
  String.join ((gatherRuns (fun one other => one.group == other.group) run).map
    (groupText placement))

/-- New imports in the order of their places. -/
def placedOrder (setting : Option String) (specs : List PlacedSpec) (close : Nat)
    (imports : List Import) : List Import :=
  sortOrdered (fun first second => (placeImport setting specs close first).mayPrecede
    (placeImport setting specs close second)) imports

/-- New imports, gathered by the place they go to. -/
def placedRuns (setting : Option String) (specs : List PlacedSpec) (close : Nat)
    (imports : List Import) : List (List Import) :=
  gatherRuns (fun one other => (placeImport setting specs close one).offset ==
      (placeImport setting specs close other).offset &&
    (placeImport setting specs close one).placement ==
      (placeImport setting specs close other).placement)
    (placedOrder setting specs close imports)

/-- The edit that puts imports at the place of the first one. -/
def runInsertion (setting : Option String) (specs : List PlacedSpec) (close : Nat)
    (run : List Import) : Option Edit :=
  run.head?.map fun first => .insertion (placeImport setting specs close first).offset
    (runText (placeImport setting specs close first).placement
      (run.map (placeImport setting specs close)))

/-- Where every import has a line of its own, each place gets one edit. -/
theorem blockEdits_of_lines (lines : isInline specs close = false) (imports : List Import) :
    blockEdits setting specs close imports =
      (placedRuns setting specs close imports).filterMap (runInsertion setting specs close) := by
  rw [isInline] at lines
  rw [blockEdits, if_neg (by simp [lines]), sortOrdered_map]
  simp only [gatherRuns_map, List.filterMap_map]
  refine List.filterMap_congr fun run _ => ?_
  cases run <;> rfl

/-- Without such lines all new imports go in front of the closing parenthesis. -/
theorem blockEdits_of_inline (inline : isInline specs close = true) (imports : List Import) :
    blockEdits setting specs close imports = [.insertion close
      (String.join (imports.map fun needed => "\n\t" ++ needed.spec) ++ "\n")] :=
  if_pos inline

/-- Every edit is made at the place of an import, or in front of the closing parenthesis. -/
theorem mem_blockEdits {imports : List Import} {edit : Edit}
    (member : edit ∈ blockEdits setting specs close imports) : ∃ offset text,
      edit = .insertion offset text ∧ (offset = close ∨
        ∃ spec ∈ specs, offset = spec.lineStart ∨ offset = spec.lineStop) := by
  cases inline : isInline specs close with
  | true =>
    rw [blockEdits_of_inline inline] at member
    exact ⟨_, _, List.mem_singleton.mp member, .inl rfl⟩
  | false =>
    rw [blockEdits_of_lines inline] at member
    obtain ⟨run, -, made⟩ := List.mem_filterMap.mp member
    obtain ⟨first, -, rfl⟩ := Option.map_eq_some_iff.mp made
    refine ⟨_, _, rfl, ?_⟩
    rcases offset_placeImport setting specs close first with found | ⟨-, final⟩
    · exact .inr found
    · exact .inl final

section Cuts

variable {text : String} {path : FilePath}

/-- Where the declarations of a file begin, end and close, its text can be cut. -/
theorem isCut_of_decl {decl : ImportDecl}
    (member : decl ∈ (SourceFile.ofText path text).importDecls) :
    IsCut text.toList decl.start ∧ IsCut text.toList decl.stop ∧ decl.start ≤ decl.stop ∧
      ∀ close, decl.close = some close → IsCut text.toList close ∧ close < decl.stop := by
  rw [importDecls_ofText] at member
  obtain ⟨after, reads, -⟩ := FileLexes.all text.toList
  obtain ⟨front, read, behind, made, decls⟩ := declRead_of_mem (reads.closed {}) member
  have cuts : ∀ token ∈ read, IsCut text.toList token.start ∧ IsCut text.toList token.stop := by
    intro token inside
    refine isCut_of_mem reads ?_
    rw [made]
    simp [inside]
  have ascending := (placeTokens_ascending {} (Go.lexemes text.toList).1).1
  rw [made] at ascending
  have ordered := (List.pairwise_append.mp (List.pairwise_append.mp ascending).2.1).1
  cases decls with
  | @group key opened closed body specs keyword opens inner closes =>
    have stop : closed.stop = closed.start + 1 := by
      simp only [Token.isMark, Bool.and_eq_true, beq_iff_eq] at closes
      rw [Token.stop, closes.2]
      rfl
    have above : key.stop ≤ closed.start :=
      (List.pairwise_cons.mp ordered).1 closed (by simp)
    have last := cuts closed (by simp)
    rw [stop] at last
    refine ⟨(cuts key (by simp)).1, last.2, ?_, ?_⟩
    · rw [Token.stop] at above
      simp only
      omega
    · rintro close ⟨⟩
      exact ⟨last.1, Nat.lt_succ_self _⟩
  | @single key read spec keyword one =>
    have final : ∃ path ∈ read, spec.stop = path.stop := by
      cases one with
      | plain => exact ⟨_, List.mem_singleton_self _, rfl⟩
      | named => exact ⟨_, by simp, rfl⟩
    obtain ⟨path, inside, same⟩ := final
    have above : key.stop ≤ path.start := (List.pairwise_cons.mp ordered).1 path inside
    refine ⟨(cuts key (by simp)).1, same ▸ (cuts path (by simp [inside])).2, ?_, by simp⟩
    simp only [same, Token.stop] at above ⊢
    omega

/-- Behind the package clause the text can be cut. -/
theorem isCut_of_package {clause : PackageClause}
    (found : (SourceFile.ofText path text).package? = some clause) :
    IsCut text.toList clause.stop := by
  obtain ⟨after, reads, -⟩ := FileLexes.all text.toList
  rw [SourceFile.package?] at found
  obtain ⟨item, member, same⟩ := List.exists_of_findSome?_eq_some found
  rw [ofText_items] at member
  obtain ⟨⟨_, taken⟩, inside, rfl⟩ := List.mem_map.mp member
  split at same
  · rename_i clause' itself
    cases same
    simp only at itself
    subst itself
    obtain ⟨front, behind, made, -, -, run, -⟩ := itemsTaken_mem (reads.closed {}) inside
    obtain ⟨key, name, split, -, -, rfl⟩ := package_of_item run
    refine (isCut_of_mem reads ?_).2
    rw [made, split]
    simp
  · cases same

/-- The last declaration with parentheses is one of the file's. -/
theorem lastGroup?_eq_some {file : SourceFile} {decl : ImportDecl}
    (found : lastGroup? file = some (decl, close)) :
    decl ∈ file.importDecls ∧ decl.close = some close := by
  obtain ⟨decl', member, same⟩ := List.mem_filterMap.mp (List.mem_of_getLast? found)
  obtain ⟨close', closes, same⟩ := Option.map_eq_some_iff.mp same
  cases same
  exact ⟨member, closes⟩

/-- Where none is found no declaration has parentheses. -/
theorem lastGroup?_eq_none {file : SourceFile} (none : lastGroup? file = none) :
    ∀ decl ∈ file.importDecls, decl.close = Option.none := by
  intro decl member
  have grouped := List.getLast?_eq_none_iff.mp none
  rw [List.filterMap_eq_nil_iff] at grouped
  simpa using grouped decl member

/-- The edits of a declaration with parentheses are insertions at cuts. -/
theorem isCut_of_mem_blockEdits {decl : ImportDecl} {imports : List Import} {edit : Edit}
    (declared : decl ∈ (SourceFile.ofText path text).importDecls)
    (closes : decl.close = some close)
    (member : edit ∈ blockEdits setting (decl.specs.map
      (placedSpec (SourceFile.ofText path text).lines setting)) close imports) :
    ∃ offset new, edit = .insertion offset new ∧ IsCut text.toList offset := by
  obtain ⟨offset, new, rfl, place⟩ := mem_blockEdits member
  refine ⟨offset, new, rfl, ?_⟩
  rcases place with rfl | ⟨spec, inside, place⟩
  · exact ((isCut_of_decl declared).2.2.2 _ closes).1
  · obtain ⟨held, -, rfl⟩ := List.mem_map.mp inside
    rcases place with rfl | rfl
    · exact isCut_lineStart text held.start
    · exact isCut_lineStop text held.stop

/-- A merge only inserts, or replaces one declaration without parentheses. -/
theorem mergeImports_edits {imports : List Import} {edits : List Edit}
    (merged : mergeImports setting (.ofText path text) imports = .ok edits) :
    (∀ edit ∈ edits, ∃ offset new, edit = .insertion offset new ∧ IsCut text.toList offset) ∨
    ∃ decl ∈ (SourceFile.ofText path text).importDecls, decl.close = none ∧
      ∃ new, edits = [⟨decl.start, decl.stop, new⟩] := by
  rw [mergeImports] at merged
  split at merged
  · cases merged
    exact .inl (by simp)
  split at merged
  · rename_i decl close found
    cases merged
    obtain ⟨member', closes⟩ := lastGroup?_eq_some found
    exact .inl fun edit => isCut_of_mem_blockEdits member' closes
  split at merged
  · rename_i unclosed _ decl found
    cases merged
    have member := List.mem_of_getLast? found
    exact .inr ⟨decl, member, lastGroup?_eq_none unclosed decl member, _, rfl⟩
  split at merged
  · cases merged
  · rename_i clause found
    cases merged
    refine .inl fun edit member => ?_
    obtain rfl := List.mem_singleton.mp member
    exact ⟨_, _, rfl, isCut_of_package found⟩

end Cuts

end Scaffold
