import Mathlib.Data.List.Chain
import Scaffold.Proofs.Go.Words
import Scaffold.Proofs.Test.Merged

/-! The notice that heads a new test file: which comments of the tested file it is, and that it is
the notice of the new file as well. -/

namespace Scaffold

open Go

section Shifted

variable {comments others : List Comment} {bytes rows : Nat}

/-- Comments that are a first group where they stand are one further up. -/
theorem Go.FirstGroup.unshifted (group : FirstGroup comments)
    (same : group.members = others.map fun comment => comment.shifted bytes rows) :
    ∃ above : FirstGroup others, above.first.shifted bytes rows = group.first ∧
      above.last.shifted bytes rows = group.last := by
  cases others with
  | nil => cases same
  | cons first more =>
    -- What joins two comments is the distance of their rows, which stays as it is.
    obtain ⟨head, tail⟩ := List.cons.inj same
    have adjacent : group.members.IsChain fun one next => next.row ≤ one.stopRow + 1 :=
      group.adjacent
    rw [same, List.isChain_map] at adjacent
    have last : group.last = (more.getLastD first).shifted bytes rows := by
      rw [FirstGroup.last, head, tail, List.getLastD_eq_getLast?, List.getLastD_eq_getLast?,
        List.getLast?_map]
      exact Option.getD_map ..
    refine ⟨⟨first, more, [], by simp, ?_, by simp⟩, head.symm, last.symm⟩
    refine adjacent.imp fun one next near => ?_
    simp only [Comment.shifted] at near
    omega

end Shifted

section Header

variable {path : FilePath} {text name notice : String}

/-- The head of a new test file is read whole, and its notice is that of the tested file. -/
theorem copyrightNotice?_newFileHeader (is : isName name.toList = true)
    (found : (SourceFile.ofText path text).copyrightNotice? = some notice) (place : FilePath) :
    (SourceFile.ofText place (newFileHeader (.ofText path text) name)).broken = false ∧
    (SourceFile.ofText place (newFileHeader (.ofText path text) name)).packageName? =
      some (name ++ "_test") ∧
    (SourceFile.ofText place (newFileHeader (.ofText path text) name)).copyrightNotice? =
      some notice := by
  have external := isName_external is
  obtain ⟨group, ⟨clause, -, -, -, plain⟩, mentions, stands⟩ := copyrightNotice?_eq_some.mp found
  obtain ⟨lead, lexes⟩ := group.exists_lead
  have same : lexemeChars lead = notice.toList := by
    rw [stands.eq lexes.stands, String.toList_ofList]
  -- The new file is read as the elements of the notice, two breaks and the clause.
  obtain ⟨reads, none, whole⟩ := lexes_noticeLead same lexes.bare.isGap (same ▸ lexes.again) _
  obtain ⟨taken, made⟩ := readsAs_of_lead _ external reads none
  rw [whole, ← newFileHeader_of_notice found] at made
  have header_eq := newFileHeader_of_notice found name
  generalize newFileHeader (.ofText path text) name = header at made header_eq
  have declared : (SourceFile.ofText place header).package? =
      some (clauseBehind (lead ++ [.blank '\n', .blank '\n']) (name ++ "_test")) := by
    rw [SourceFile.package?, made.items_eq]
    rfl
  refine ⟨made.unbroken place, by rw [SourceFile.packageName?, declared]; rfl, ?_⟩
  -- Its comments are those of the notice, moved to the start of the file.
  have comments : (SourceFile.ofText place header).comments = leadComments 0 0 lead := by
    rw [comments_ofText, made.lexemes_eq, List.append_assoc, lexes.bare.leadComments_append]
    exact List.append_nil _
  obtain ⟨above, first, last⟩ := group.unshifted (comments ▸ lexes.members)
  -- The comments stand where the file begins, and end two rows above the clause.
  have texts := congrArg Comment.text first
  have start := congrArg Comment.start first
  have stop := congrArg Comment.stop last
  have stopRow := congrArg Comment.stopRow last
  have rows := lexes.stopRow
  simp only [Comment.shifted] at texts start stop stopRow
  have begins : above.first.start = 0 := by omega
  refine copyrightNotice?_eq_some.mpr ⟨above, ⟨_, declared, ?_, ?_, texts ▸ plain⟩, ?_, ?_⟩
  · show _ < byteLength _
    rw [begins, lexemeChars_append, byteLength_append]
    have breaks : byteLength (lexemeChars [.blank '\n', .blank '\n']) = 2 := by decide
    omega
  · show _ < List.count '\n' _
    rw [lexemeChars_append, List.count_append]
    have breaks : (lexemeChars [.blank '\n', .blank '\n']).count '\n' = 2 := by decide
    omega
  · rw [Comment.MentionsCopyright, texts]
    exact mentions
  · -- Nothing stands in front of the notice any more.
    obtain ⟨before, after, -, from_, upTo⟩ := stands
    refine ⟨[], '\n' :: '\n' :: ("package " ++ (name ++ "_test") ++ "\n").toList, ?_,
      begins.symm, ?_⟩
    · rw [header_eq]
      simp
    · rw [byteLength_nil]
      omega

end Header

section Claims

variable (path : FilePath) (text : String)

/-- A first group of comments with one among them that mentions a copyright gives a notice exactly
if the first one does. -/
theorem mentions_of_members_iff :
    (∀ notice, (SourceFile.ofText path text).copyrightNotice? = some notice ↔
      ∃ group : FirstGroup (SourceFile.ofText path text).comments, group.IsHeading ∧
        (∃ comment ∈ group.members, comment.MentionsCopyright) ∧
        IsStretch text group.first.start group.last.stop notice) ↔
    ∀ group : FirstGroup (SourceFile.ofText path text).comments, group.IsHeading →
      (∃ comment ∈ group.members, comment.MentionsCopyright) → group.first.MentionsCopyright := by
  constructor
  · -- Such a group would be the notice, so its first comment mentions a copyright.
    intro claim group heading mentioned
    obtain ⟨lead, lexes⟩ := group.exists_lead
    obtain ⟨other, -, mentions, -⟩ := copyrightNotice?_eq_some.mp
      ((claim _).mpr ⟨group, heading, mentioned, lexes.stands⟩)
    -- There is but one first comment.
    have same := (List.cons.inj (group.whole.symm.trans other.whole)).1
    exact same ▸ mentions
  · intro first notice
    rw [copyrightNotice?_eq_some]
    constructor
    · rintro ⟨group, heading, mentions, stands⟩
      exact ⟨group, heading, ⟨_, List.mem_cons_self, mentions⟩, stands⟩
    · rintro ⟨group, heading, mentioned, stands⟩
      exact ⟨group, heading, first group heading mentioned, stands⟩

/--
The notice of a file is the text of its first group of comments, if that is a heading whose first
comment mentions a copyright.

So a heading that mentions one anywhere is a notice exactly if its first comment does. The head of a
new test file is the notice, an empty line and the package clause, and is read as such: its notice
is the same text, set off from the clause.
-/
theorem notice_heads_newFile :
    (∀ notice, (SourceFile.ofText path text).copyrightNotice? = some notice ↔
      ∃ group : FirstGroup (SourceFile.ofText path text).comments, group.IsHeading ∧
        group.first.MentionsCopyright ∧
        IsStretch text group.first.start group.last.stop notice) ∧
    ((∀ notice, (SourceFile.ofText path text).copyrightNotice? = some notice ↔
      ∃ group : FirstGroup (SourceFile.ofText path text).comments, group.IsHeading ∧
        (∃ comment ∈ group.members, comment.MentionsCopyright) ∧
        IsStretch text group.first.start group.last.stop notice) ↔
      ∀ group : FirstGroup (SourceFile.ofText path text).comments, group.IsHeading →
        (∃ comment ∈ group.members, comment.MentionsCopyright) →
        group.first.MentionsCopyright) ∧
    ∀ notice name, (SourceFile.ofText path text).copyrightNotice? = some notice →
      (SourceFile.ofText path text).packageName? = some name →
      newFileHeader (.ofText path text) name =
        notice ++ "\n\n" ++ ("package " ++ (name ++ "_test") ++ "\n") ∧
      ∀ place, (SourceFile.ofText place (newFileHeader (.ofText path text) name)).broken = false ∧
        (SourceFile.ofText place (newFileHeader (.ofText path text) name)).packageName? =
          some (name ++ "_test") ∧
        (SourceFile.ofText place (newFileHeader (.ofText path text) name)).copyrightNotice? =
          some notice :=
  ⟨fun _ => copyrightNotice?_eq_some, mentions_of_members_iff path text,
    fun _ name found declared => ⟨newFileHeader_of_notice found name,
      copyrightNotice?_newFileHeader (isName_of_packageName declared) found⟩⟩

end Claims

/-- A file with a notice of two lines. -/
def noticed : String :=
  "// Copyright 2024.\n// All rights reserved.\n\npackage p\n"

/-- The notice of two lines heads the new file, and is read there again. -/
theorem notice_heads_newFile_twoLines :
    (SourceFile.ofText ⟨"p.go"⟩ noticed).copyrightNotice? =
      some "// Copyright 2024.\n// All rights reserved." ∧
    (SourceFile.ofText ⟨"p.go"⟩ noticed).packageName? = some "p" ∧
    newFileHeader (.ofText ⟨"p.go"⟩ noticed) "p" =
      "// Copyright 2024.\n// All rights reserved.\n\npackage p_test\n" ∧
    (SourceFile.ofText ⟨"p_test.go"⟩
      (newFileHeader (.ofText ⟨"p.go"⟩ noticed) "p")).copyrightNotice? =
      some "// Copyright 2024.\n// All rights reserved." := by
  have found : (SourceFile.ofText ⟨"p.go"⟩ noticed).copyrightNotice? =
      some "// Copyright 2024.\n// All rights reserved." := by decide +kernel
  have declared : (SourceFile.ofText ⟨"p.go"⟩ noticed).packageName? = some "p" := by decide +kernel
  obtain ⟨header, reads⟩ := (notice_heads_newFile ⟨"p.go"⟩ noticed).2.2 _ _ found declared
  exact ⟨found, declared, header.trans (by decide), (reads ⟨"p_test.go"⟩).2.2⟩

/-- A file whose second comment is what mentions a copyright. -/
def lateNotice : String :=
  "// Foo.\n// Copyright 2024.\n\npackage p\n"

/-- The two comments of that file. -/
def lateGroup : FirstGroup (SourceFile.ofText ⟨"p.go"⟩ lateNotice).comments where
  first := ⟨"// Foo.", 0, 7, 0, 0⟩
  more := [⟨"// Copyright 2024.", 8, 26, 1, 1⟩]
  others := []
  whole := by decide +kernel
  adjacent := by decide
  apart := by simp

/-- A group that is set off and mentions a copyright is no notice if its first comment does not
mention it. -/
theorem no_notice_of_second : (SourceFile.ofText ⟨"p.go"⟩ lateNotice).copyrightNotice? = none ∧
    ∃ group : FirstGroup (SourceFile.ofText ⟨"p.go"⟩ lateNotice).comments, group.IsHeading ∧
      (∃ comment ∈ group.members, comment.MentionsCopyright) ∧
      IsStretch lateNotice group.first.start group.last.stop "// Foo.\n// Copyright 2024." := by
  have clause : (SourceFile.ofText ⟨"p.go"⟩ lateNotice).package? = some ⟨"p", 28, 37, 3⟩ := by
    decide +kernel
  have heading : lateGroup.IsHeading := ⟨_, clause, by decide, by decide, by decide⟩
  have stands : IsStretch lateNotice 0 26 "// Foo.\n// Copyright 2024." :=
    ⟨[], "\n\npackage p\n".toList, by decide, by decide, by decide⟩
  have mentions : (⟨"// Copyright 2024.", 8, 26, 1, 1⟩ : Comment).MentionsCopyright :=
    (occursIn_iff _ _).mp (by decide +kernel)
  exact ⟨by decide +kernel, lateGroup, heading,
    ⟨_, List.mem_cons_of_mem _ List.mem_cons_self, mentions⟩, stands⟩

end Scaffold
