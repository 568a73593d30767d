import Scaffold.Proofs.Imports.Woven

/-! Imports merged into a file, and the same imports written at once. -/

namespace Scaffold

open Go

variable {setting : Option String} {held wanted : List Import} {rest : String}

section Order

/-- A declaration is the same in whatever order its imports are given. -/
theorem importBlock_perm {imports others : List Import} (perm : imports.Perm others) :
    importBlock setting imports = importBlock setting others := by
  have length := perm.length_eq
  -- Fewer than two imports have only one order, more of them are sorted.
  rcases imports with _ | ⟨first, _ | ⟨second, more⟩⟩
  · rw [perm.nil_eq]
  · rw [List.singleton_perm.mp perm]
  · rcases others with _ | ⟨first', _ | ⟨second', more'⟩⟩
    · cases length
    · cases length
    · simp only [importBlock, groupedImports_perm perm]

theorem headed_perm {imports others : List Import} (perm : imports.Perm others) (rest : String) :
    headed setting imports rest = headed setting others rest := by
  rw [headed, headed, importBlock_perm perm]

end Order

section Missing

/-- A file has the imports that it is headed by. -/
theorem importsOf_headed_perm (legible : ∀ needed ∈ held, needed.IsLegible)
    (bare : DeclaresNone rest) : (importsOf (headed setting held rest)).Perm held := by
  rcases held with _ | ⟨first, _ | ⟨second, others⟩⟩
  · rw [importsOf, SourceFile.imports, headed_nil, bare]
    rfl
  · obtain ⟨decl, -, -, -, -, -, all⟩ := @read_headed_single setting rest first
      (legible first (by simp)) bare
    rw [all]
  · obtain ⟨decl, -, -, all⟩ := @read_headed_several setting rest first second others legible bare
    rw [all]
    exact flatten_groupedImports_perm setting _

theorem mem_missing_headed (legible : ∀ needed ∈ held, needed.IsLegible) (bare : DeclaresNone rest)
    {needed : Import} : needed ∈ missingImports (importsFile (headed setting held rest)) wanted ↔
      needed ∈ wanted ∧ needed ∉ held := by
  rw [mem_missing, (importsOf_headed_perm legible bare).mem_iff]

end Missing

section Routes

variable {edits : List Edit}

/-- Without imports, the new ones are written behind the package clause. -/
theorem merge_headed_nil (bare : DeclaresNone rest)
    (lacks : missingImports (importsFile (headed setting [] rest)) wanted ≠ []) :
    ∃ edits, importEdits setting (headed setting [] rest) wanted = .ok edits ∧
      applyEdits (headed setting [] rest) edits = .ok (headed setting
        (missingImports (importsFile (headed setting [] rest)) wanted) rest) := by
  obtain ⟨clause, found, stop⟩ := package_headed setting rest
  have undeclared : (importsFile (headed setting [] rest)).importDecls.getLast? = none := by
    rw [headed_nil, bare]
    rfl
  have split : (headed setting [] rest).toList = "package p".toList ++ '\n' :: rest.toList := by
    have lead : "package p\n".toList = "package p".toList ++ ['\n'] := by decide
    rw [headed_nil, String.toList_append, lead, List.append_assoc]
    rfl
  have applied := applyEdits_insertion split ("\n" ++ trimEndBreaks (importBlock setting
    (missingImports (importsFile (headed setting [] rest)) wanted)))
  rw [← stop] at applied
  refine ⟨_, importEdits_of_package lacks undeclared found, applied.trans (congrArg Except.ok ?_)⟩
  have lead : "package p\n\n".toList = "package p".toList ++ ['\n', '\n'] := by decide
  rw [← String.toList_inj, String.toList_ofList, headed_toList lacks, String.toList_append,
    trimEndBreaks_importBlock setting lacks, lead]
  simp

/-- A lone import is written again with the new ones. -/
theorem merge_headed_single {single : Import} (legible : single.IsLegible)
    (bare : DeclaresNone rest)
    (lacks : missingImports (importsFile (headed setting [single] rest)) wanted ≠ []) :
    ∃ edits, importEdits setting (headed setting [single] rest) wanted = .ok edits ∧
      applyEdits (headed setting [single] rest) edits = .ok (headed setting
        ([single] ++ missingImports (importsFile (headed setting [single] rest)) wanted) rest) := by
  obtain ⟨decl, ungrouped, last, start, stop, values, -⟩ :=
    @read_headed_single setting rest single legible bare
  refine ⟨_, importEdits_of_single lacks ungrouped last, ?_⟩
  generalize missingImports (importsFile (headed setting [single] rest)) wanted = new
  have some : [single] ++ new ≠ [] := List.cons_ne_nil _ _
  have made := applyEdits_replacement "package p\n\n".toList (declText setting [single])
    ('\n' :: rest.toList) (trimBreaks (importBlock setting ([single] ++ new)))
  rw [← headed_toList (List.cons_ne_nil _ _), String.ofList_toList,
    trimBreaks_importBlock setting some, List.append_assoc, ← headed_toList some,
    String.ofList_toList] at made
  rw [values, stop, start]
  exact made

/-- The lines of imports lie within the text that they are lines of. -/
theorem placesIn_bounds {offset : Nat} {lines : List (Option Import)} {spec : PlacedSpec}
    (member : spec ∈ placesIn setting offset lines) :
    offset ≤ spec.lineStart ∧ spec.lineStart ≤ spec.lineStop ∧
      spec.lineStop ≤ offset + byteLength (lines.flatMap lineText) := by
  obtain ⟨line, inside, rfl⟩ := List.mem_map.mp member
  obtain ⟨front, back, split, place, -⟩ := hasLine_of_mem inside
  rw [split, byteLength_append, byteLength_append]
  dsimp only
  omega

/-- The edits of a declaration that is written in groups put new imports in at their spots. -/
theorem applyEdits_blockEdits {text : String} {lead tail : List Char}
    {groups : List (ImportGroup × List Import)} {decl : ImportDecl} {close : Nat}
    {new : List Import} (split : text.toList = lead ++ (joined (groups.map Prod.snd) ++ tail))
    (are : AreGroups setting groups) (some : groups ≠ [])
    (declared : decl ∈ (importsFile text).importDecls) (closes : decl.close = Option.some close)
    (here : close = byteLength lead + byteLength (joined (groups.map Prod.snd)))
    (places : placesOf setting text decl =
      placesIn setting (byteLength lead) (spacedLines (groups.map Prod.snd)))
    (ordered : new.Pairwise fun first second => first.mayPrecede second = true) :
    applyEdits text (blockEdits setting (placesOf setting text decl) close new) =
      .ok (String.ofList (lead ++ woven setting (byteLength lead) groups new ++ tail)) := by
  have bounds : ∀ spec ∈ placesOf setting text decl, byteLength lead ≤ spec.lineStart ∧
      spec.lineStart ≤ spec.lineStop ∧ spec.lineStop ≤ close := by
    intro spec member
    rw [places] at member
    have := placesIn_bounds member
    rwa [← joined, ← here] at this
  -- Every import has lines of its own in front of the parenthesis.
  have lines : isInline (placesOf setting text decl) close = false := by
    rw [isInline, Bool.or_eq_false_iff, List.any_eq_false]
    refine ⟨?_, fun spec member => by simpa using (bounds spec member).2.2⟩
    rw [places, List.isEmpty_eq_false_iff]
    exact placesIn_ne_nil are some _
  -- No edit is made outside the groups.
  have inside : ∀ edit ∈ blockEdits setting (placesOf setting text decl) close new,
      byteLength lead ≤ edit.start ∧
        edit.start ≤ byteLength lead + byteLength (joined (groups.map Prod.snd)) := by
    intro edit member
    rw [← here]
    obtain ⟨offset, added, rfl, rfl | ⟨spec, held, rfl | rfl⟩⟩ := mem_blockEdits member
    · exact ⟨by simp only [Edit.insertion]; omega, le_rfl⟩
    · have := bounds spec held
      simp only [Edit.insertion]
      omega
    · have := bounds spec held
      simp only [Edit.insertion]
      omega
  have added : addedAt (blockEdits setting (placesOf setting text decl) close new) =
      placedAt setting (spotIn setting (byteLength lead) groups) new := by
    funext offset
    rw [addedAt_blockEdits lines ordered, places, funext (placeOf_placesIn are some _ _)]
  rw [applyEdits_weave_inside split (blockEdits_pairwise lines new)
    (fun edit => isCut_of_mem_blockEdits declared closes) inside, added, woven]

/-- Several imports stand in their groups between parentheses. -/
theorem headed_several_toList (setting : Option String) (first second : Import)
    (others : List Import) (rest : String) :
    (headed setting (first :: second :: others) rest).toList =
      "package p\n\nimport (\n".toList ++ (joined (groupedImports setting
        (first :: second :: others)) ++ (')' :: '\n' :: rest.toList)) := by
  have lead : "package p\n\nimport (\n".toList =
      "package p\n\n".toList ++ "import (\n".toList := by decide
  rw [headed_toList (List.cons_ne_nil _ _), declText_several, lead, joined, flatMap_spacedLines,
    groupedLines]
  simp only [List.append_assoc, List.singleton_append]

/-- Among several imports new ones are put in at their spots. -/
theorem merge_headed_several {first second : Import} {others : List Import}
    (legible : ∀ needed ∈ first :: second :: others, needed.IsLegible) (bare : DeclaresNone rest)
    (distinct : ((first :: second :: others).map Import.path).Nodup)
    (lacks : missingImports (importsFile (headed setting (first :: second :: others) rest)) wanted ≠
      []) :
    ∃ edits, importEdits setting (headed setting (first :: second :: others) rest) wanted =
        .ok edits ∧
      applyEdits (headed setting (first :: second :: others) rest) edits =
        .ok (String.ofList ("package p\n\nimport (\n".toList ++
          woven setting (byteLength "package p\n\nimport (\n".toList)
            (groupsOf setting (first :: second :: others)) (missingImports
              (importsFile (headed setting (first :: second :: others) rest)) wanted) ++
          ')' :: '\n' :: rest.toList)) := by
  obtain ⟨decl, found, places, -⟩ := @read_headed_several setting rest first second others
    legible bare
  obtain ⟨declared, closes⟩ := lastGroup?_eq_some found
  have several : first :: second :: others ≠ [] := List.cons_ne_nil _ _
  have lines : joined ((groupsOf setting (first :: second :: others)).map Prod.snd) =
      (groupedLines setting (first :: second :: others)).toList := by
    rw [map_snd_groupsOf, joined, flatMap_spacedLines, groupedLines]
  refine ⟨_, importEdits_of_group lacks found, applyEdits_blockEdits ?_
    (areGroups_groupsOf distinct) ?_ declared closes ?_ ?_ (missingImports_pairwise _ _)⟩
  · rw [map_snd_groupsOf]
    exact headed_several_toList setting first second others rest
  · exact groupsOf_ne_nil several
  · rw [lines, byteLength_append]
  · rw [places, map_snd_groupsOf]

end Routes

/-- Several imports with new ones at their spots are written as all of them at once if these keep
apart, and only then. -/
theorem woven_headed_iff {first second : Import} {others new : List Import}
    (distinct : ((first :: second :: others).map Import.path).Nodup)
    (ordered : new.Pairwise fun one other => one.mayPrecede other = true)
    (apart : ∀ needed ∈ new, ∀ other ∈ first :: second :: others, needed.path ≠ other.path) :
    String.ofList ("package p\n\nimport (\n".toList ++
        woven setting (byteLength "package p\n\nimport (\n".toList)
          (groupsOf setting (first :: second :: others)) new ++ ')' :: '\n' :: rest.toList) =
        headed setting (first :: second :: others ++ new) rest ↔
      KeepApart setting (first :: second :: others) new := by
  have some : groupsOf setting (first :: second :: others) ≠ [] :=
    groupsOf_ne_nil (List.cons_ne_nil _ _)
  have perm := flatMap_groupsOf_perm setting (first :: second :: others)
  have all : first :: second :: others ++ new = first :: second :: (others ++ new) := rfl
  rw [← String.toList_inj, String.toList_ofList, all, headed_several_toList, ← all,
    ← groupedImports_perm (perm.append_right new), List.append_assoc, List.append_cancel_left_eq,
    List.append_cancel_right_eq, woven_eq_iff (areGroups_groupsOf distinct) some ordered
      fun needed member other inside => apart needed member other (perm.mem_iff.mp inside)]
  exact keepApart_congr fun needed => perm.mem_iff

/-- Two imports of one group. -/
def neighbours : List Import :=
  [⟨"github.com/b/b", none⟩, ⟨"github.com/c/c", none⟩]

/--
Imports that are merged into a file are written as all imports at once would be, if no two new ones
come to the same place among several that are there, and only then.
-/
theorem merge_headed_iff {all : List Import} (legible : ∀ needed ∈ held, needed.IsLegible)
    (bare : DeclaresNone rest) (distinct : held.Nodup) (listed : all.Nodup)
    (union : ∀ needed, needed ∈ all ↔ needed ∈ held ∨ needed ∈ wanted)
    (paths : ∀ one ∈ all, ∀ other ∈ all, one.path = other.path → one = other) :
    ∃ edits merged, importEdits setting (headed setting held rest) wanted = .ok edits ∧
      applyEdits (headed setting held rest) edits = .ok merged ∧
      (merged = headed setting all rest ↔ held.length < 2 ∨ KeepApart setting held wanted) := by
  have new : ∀ needed, needed ∈ missingImports (importsFile (headed setting held rest)) wanted ↔
      needed ∈ wanted ∧ needed ∉ held := fun needed => mem_missing_headed legible bare
  -- What the file has and what it lacks is all there is to be.
  have perm :
      (held ++ missingImports (importsFile (headed setting held rest)) wanted).Perm all := by
    refine (List.perm_ext_iff_of_nodup (distinct.append (nodup_missingImports _ _) ?_) listed).mpr
      fun needed => ?_
    · exact fun needed inside missing => ((new needed).mp missing).2 inside
    · rw [List.mem_append, new, union]
      tauto
  rw [← keepApart_of_new new, ← headed_perm perm rest]
  by_cases lacks : missingImports (importsFile (headed setting held rest)) wanted = []
  -- A file that lacks nothing stays as it is.
  · refine ⟨[], _, importEdits_of_none lacks, applyEdits_nil _, ?_⟩
    rw [lacks, List.append_nil]
    exact iff_of_true rfl (.inr fun lower none => absurd none (List.not_mem_nil))
  rcases held with _ | ⟨first, _ | ⟨second, others⟩⟩
  -- With fewer than two imports the declaration is written anew.
  · obtain ⟨edits, made, applied⟩ := merge_headed_nil bare lacks
    exact ⟨edits, _, made, applied, iff_of_true rfl (.inl (by decide))⟩
  · obtain ⟨edits, made, applied⟩ := merge_headed_single (legible first (by simp)) bare lacks
    exact ⟨edits, _, made, applied, iff_of_true rfl (.inl (by simp))⟩
  -- Among several imports all turns on where the new ones are put.
  · have inside : ∀ needed ∈ first :: second :: others, needed ∈ all :=
      fun needed member => (union needed).mpr (.inl member)
    have once : ((first :: second :: others).map Import.path).Nodup :=
      distinct.map_on fun one member other member' => paths one (inside one member) other
        (inside other member')
    have apart : ∀ needed ∈ missingImports (importsFile (headed setting (first :: second :: others)
        rest)) wanted, ∀ other ∈ first :: second :: others, needed.path ≠ other.path := by
      intro needed missing other member same
      obtain ⟨asked, absent⟩ := (new needed).mp missing
      rw [paths needed ((union needed).mpr (.inr asked)) other (inside other member) same] at absent
      exact absent member
    obtain ⟨edits, made, applied⟩ := merge_headed_several legible bare once lacks
    refine ⟨edits, _, made, applied, ?_⟩
    rw [woven_headed_iff once (missingImports_pairwise _ _) apart, or_iff_right (by simp)]

/-- A group begun in front of two imports comes before them. -/
theorem merge_headed_neighbours : ∃ edits merged,
    importEdits none (headed none neighbours "\nvar x = 1\n") [⟨"fmt", none⟩] = .ok edits ∧
    applyEdits (headed none neighbours "\nvar x = 1\n") edits = .ok merged ∧
    merged = headed none (⟨"fmt", none⟩ :: neighbours) "\nvar x = 1\n" := by
  have legible : ∀ needed ∈ neighbours, needed.IsLegible := by
    unfold Import.IsLegible IsPlain
    simp only [neighbours, List.forall_mem_cons]
    refine ⟨⟨by decide, by simp⟩, ⟨by decide, by simp⟩, by simp⟩
  have bare : DeclaresNone "\nvar x = 1\n" := by
    have none : (importsFile ("package p\n" ++ "\nvar x = 1\n")).importDecls.length = 0 := by
      decide +kernel
    exact List.length_eq_zero_iff.mp none
  obtain ⟨edits, merged, made, applied, same⟩ := @merge_headed_iff none neighbours
    [⟨"fmt", none⟩] "\nvar x = 1\n" (⟨"fmt", none⟩ :: neighbours) legible bare (by decide)
    (by decide) (by simp [or_comm]) (by decide)
  exact ⟨edits, merged, made, applied, same.mpr (.inr (by decide +kernel))⟩

private theorem eq_ok_of_toOption {ε α : Type} {result : Except ε α} {value : α}
    (same : result.toOption = some value) : result = .ok value := by
  cases result with
  | error error => cases same
  | ok other => exact congrArg Except.ok (Option.some.inj same)

/-- A group begun in front of two imports comes behind an import put in before them. -/
theorem merge_neighbours_meets : ∃ edits merged,
    importEdits none (headed none neighbours "") [⟨"fmt", none⟩, ⟨"github.com/a/a", none⟩] =
      .ok edits ∧
    applyEdits (headed none neighbours "") edits = .ok merged ∧
    merged ≠ headed none (⟨"fmt", none⟩ :: ⟨"github.com/a/a", none⟩ :: neighbours) "" := by
  have made : importEdits none (headed none neighbours "")
      [⟨"fmt", none⟩, ⟨"github.com/a/a", none⟩] =
        .ok [.insertion 20 "\t\"github.com/a/a\"\n", .insertion 20 "\t\"fmt\"\n\n"] :=
    eq_ok_of_toOption (by decide +kernel)
  have applied : applyEdits (headed none neighbours "")
      [.insertion 20 "\t\"github.com/a/a\"\n", .insertion 20 "\t\"fmt\"\n\n"] =
        .ok ("package p\n\nimport (\n\t\"github.com/a/a\"\n\t\"fmt\"\n\n" ++
          "\t\"github.com/b/b\"\n\t\"github.com/c/c\"\n)\n") :=
    eq_ok_of_toOption (by decide +kernel)
  exact ⟨_, _, made, applied, by decide +kernel⟩

end Scaffold
