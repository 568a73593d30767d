import Scaffold.Go.Header
import Scaffold.Proofs.Go.File
import Scaffold.Proofs.Go.Written

/-! The head of a file: its notice and its package clause are read as such wherever they are put. -/

namespace Scaffold.Go

/-- Elements that make no token where no statement ends. -/
def IsGap (lexemes : List Lexeme) : Prop :=
  ∀ reach : Reach, reach.ending = false →
    tokensFrom reach lexemes = [] ∧ (reachBehind reach lexemes).ending = false

namespace IsGap

variable {lexemes more : List Lexeme}

theorem nil : IsGap [] :=
  fun _ unended => ⟨rfl, unended⟩

theorem append (front : IsGap lexemes) (back : IsGap more) : IsGap (lexemes ++ more) := by
  intro reach unended
  obtain ⟨none, behind⟩ := front reach unended
  obtain ⟨none', behind'⟩ := back _ behind
  rw [tokensFrom_append, reachBehind_append, none, none']
  exact ⟨rfl, behind'⟩

theorem comment (text : List Char) : IsGap [.comment text] :=
  fun _ unended => ⟨rfl, unended⟩

theorem blank (c : Char) : IsGap [.blank c] := by
  intro reach unended
  obtain ⟨none, behind⟩ := tokenAt_blank reach c (.inr unended)
  rw [tokensFrom, none, reachBehind, reachBehind]
  exact ⟨rfl, behind.trans unended⟩

end IsGap

section Comments

/-- The comments among elements in front of the first token, from an offset and a row on. -/
def leadComments (offset row : Nat) : List Lexeme → List Comment
  | [] => []
  | .token _ _ :: _ => []
  | .comment text :: rest =>
    ⟨String.ofList text, offset, offset + byteLength text, row, row + text.count '\n'⟩ ::
      leadComments (offset + byteLength text) (row + text.count '\n') rest
  | .blank c :: rest => leadComments (offset + byteLength [c]) (row + [c].count '\n') rest

/-- A comment in a text that stands further down. -/
def Comment.shifted (comment : Comment) (bytes rows : Nat) : Comment :=
  ⟨comment.text, bytes + comment.start, bytes + comment.stop, rows + comment.row,
    rows + comment.stopRow⟩

/-- Elements that stand further down have their comments there. -/
theorem leadComments_shifted (bytes rows offset row : Nat) (lexemes : List Lexeme) :
    leadComments (bytes + offset) (rows + row) lexemes =
      (leadComments offset row lexemes).map fun comment => comment.shifted bytes rows := by
  -- Each element moves both places on by the same.
  fun_induction leadComments offset row lexemes with
  | case1 offset row => rfl
  | case2 offset row kind text rest => rfl
  | case3 offset row text rest ih =>
    rw [leadComments, List.map_cons, ← ih, Nat.add_assoc, Nat.add_assoc]
    rfl
  | case4 offset row c rest ih => rw [leadComments, ← ih, Nat.add_assoc, Nat.add_assoc]

variable {reach : Reach} {lexemes : List Lexeme} {first : Token} {rest : List Token}

/-- The first token keeps the comments in front of it. -/
theorem comments_of_placeTokens (unended : reach.ending = false)
    (made : placeTokens reach lexemes = first :: rest) :
    first.comments = reach.comments ++ leadComments reach.offset reach.row lexemes := by
  induction lexemes generalizing reach with
  | nil =>
    cases made
    exact (List.append_nil _).symm
  | cons lexeme lexemes ih =>
    cases lexeme with
    | token kind text =>
      cases made
      exact (List.append_nil _).symm
    | comment text =>
      rw [ih (by exact unended) made, leadComments, List.append_assoc]
      rfl
    | blank c =>
      rw [placeTokens, unended, Bool.and_false, if_neg Bool.false_ne_true] at made
      rw [ih (by exact unended) made, leadComments]
      rfl

/-- Where a list ends is where it ends behind its first element. -/
theorem getD_getLast?_cons {α : Type} (end_ : α → Nat) (x : α) (xs : List α) (bound : Nat) :
    ((x :: xs).getLast?.map end_).getD bound = (xs.getLast?.map end_).getD (end_ x) := by
  rw [List.getLast?_cons]
  cases xs.getLast? <;> rfl

/-- Comments and blank characters only. -/
def AreBare (lexemes : List Lexeme) : Prop :=
  ∀ kind text, .token kind text ∉ lexemes

/-- Without tokens among them, elements make none where no statement ends. -/
theorem AreBare.isGap (bare : AreBare lexemes) : IsGap lexemes := by
  induction lexemes with
  | nil => exact .nil
  | cons lexeme rest ih =>
    have behind : IsGap rest := ih fun kind text member => bare kind text (.tail _ member)
    cases lexeme with
    | token kind text => exact absurd List.mem_cons_self (bare kind text)
    | comment text => exact (IsGap.comment text).append behind
    | blank c => exact (IsGap.blank c).append behind

/-- Behind elements without tokens the comments go on. -/
theorem AreBare.leadComments_append (bare : AreBare lexemes) (offset row : Nat)
    (more : List Lexeme) : leadComments offset row (lexemes ++ more) =
      leadComments offset row lexemes ++ leadComments (offset + byteLength (lexemeChars lexemes))
        (row + (lexemeChars lexemes).count '\n') more := by
  induction lexemes generalizing offset row with
  | nil => rfl
  | cons lexeme rest ih =>
    have behind : AreBare rest := fun kind text member => bare kind text (.tail _ member)
    rw [lexemeChars_cons, byteLength_append, List.count_append, ← Nat.add_assoc, ← Nat.add_assoc]
    cases lexeme with
    | token kind text => exact absurd List.mem_cons_self (bare kind text)
    | comment text => exact congrArg (_ :: ·) (ih behind _ _)
    | blank c => exact ih behind _ _

/-- The comments in front of some others are those of the elements up to the last of them. -/
theorem exists_bare_of_comments {offset row : Nat} {own others : List Comment}
    (all : leadComments offset row lexemes = own ++ others) : ∃ inner behind,
      lexemes = inner ++ behind ∧ AreBare inner ∧ leadComments offset row inner = own ∧
      (own.getLast?.map Comment.stop).getD offset = offset + byteLength (lexemeChars inner) ∧
      (own.getLast?.map Comment.stopRow).getD row = row + (lexemeChars inner).count '\n' := by
  -- The induction follows the elements until no comment is left to be found.
  fun_induction leadComments offset row lexemes generalizing own with
  | case1 offset row =>
    obtain ⟨rfl, rfl⟩ := List.append_eq_nil_iff.mp all.symm
    exact ⟨[], [], rfl, nofun, rfl, rfl, rfl⟩
  | case2 offset row kind text rest =>
    obtain ⟨rfl, rfl⟩ := List.append_eq_nil_iff.mp all.symm
    exact ⟨[], _, rfl, nofun, rfl, rfl, rfl⟩
  | case3 offset row text rest ih =>
    cases own with
    | nil => exact ⟨[], _, rfl, nofun, rfl, rfl, rfl⟩
    | cons comment own =>
      obtain ⟨rfl, later⟩ := List.cons.inj all
      obtain ⟨inner, behind, rfl, bare, within, stop, stopRow⟩ := ih later
      refine ⟨.comment text :: inner, behind, rfl, ?_, ?_, ?_, ?_⟩
      · simpa [AreBare] using bare
      · rw [leadComments, within]
      · rw [getD_getLast?_cons, stop, lexemeChars_cons, byteLength_append, ← Nat.add_assoc]
        rfl
      · rw [getD_getLast?_cons, stopRow, lexemeChars_cons, List.count_append, ← Nat.add_assoc]
        rfl
  | case4 offset row c rest ih =>
    cases own with
    | nil => exact ⟨[], _, rfl, nofun, rfl, rfl, rfl⟩
    | cons comment own =>
      obtain ⟨inner, behind, rfl, bare, within, stop, stopRow⟩ := ih all
      rw [getD_getLast?_cons] at stop stopRow
      refine ⟨.blank c :: inner, behind, rfl, ?_, ?_, ?_, ?_⟩
      · simpa [AreBare] using bare
      · rw [leadComments, within]
      · rw [getD_getLast?_cons, stop, lexemeChars_cons, byteLength_append, ← Nat.add_assoc]
        rfl
      · rw [getD_getLast?_cons, stopRow, lexemeChars_cons, List.count_append, ← Nat.add_assoc]
        rfl

/-- The first of the comments stands behind elements without any, and the others behind it. -/
theorem exists_lead_of_comments {offset row : Nat} {comment : Comment} {others : List Comment}
    (all : leadComments offset row lexemes = comment :: others) : ∃ front text back,
      lexemes = front ++ .comment text :: back ∧
      comment = ⟨String.ofList text, offset + byteLength (lexemeChars front),
        offset + byteLength (lexemeChars front) + byteLength text,
        row + (lexemeChars front).count '\n',
        row + (lexemeChars front).count '\n' + text.count '\n'⟩ ∧
      leadComments comment.stop comment.stopRow back = others := by
  -- Blank characters are passed up to the first comment.
  fun_induction leadComments offset row lexemes with
  | case1 offset row => cases all
  | case2 offset row kind text rest => cases all
  | case3 offset row text rest ih =>
    obtain ⟨rfl, behind⟩ := List.cons.inj all
    exact ⟨[], text, rest, rfl, rfl, behind⟩
  | case4 offset row c rest ih =>
    obtain ⟨front, text, back, rfl, is, behind⟩ := ih all
    refine ⟨.blank c :: front, text, back, rfl, is.trans ?_, behind⟩
    rw [lexemeChars_cons, byteLength_append, List.count_append, Lexeme.chars]
    simp only [Nat.add_assoc]

end Comments

/-- The first group among some comments: its neighbours stand on the same row or on rows next to
each other, and the row below it is free of comments. -/
structure FirstGroup (comments : List Comment) where
  first : Comment
  more : List Comment
  others : List Comment
  whole : comments = first :: (more ++ others)
  adjacent : (first :: more).IsChain fun one next => next.row ≤ one.stopRow + 1
  apart : ∀ next, others.head? = some next → (more.getLastD first).stopRow + 1 < next.row

namespace FirstGroup

variable {comments : List Comment}

/-- The comments of the group. -/
def members (group : FirstGroup comments) : List Comment :=
  group.first :: group.more

/-- The last comment of the group. -/
def last (group : FirstGroup comments) : Comment :=
  group.more.getLastD group.first

/-- The group as it is gathered. -/
def gathered (group : FirstGroup comments) : CommentGroup :=
  ⟨group.first.start, group.last.stop, group.first.row, group.last.stopRow, group.first.text⟩

/-- A group that is open takes in all comments up to a free row. -/
theorem groupFrom_head {open_ : CommentGroup} {one : Comment} {more others : List Comment}
    (adjacent : (one :: more).IsChain fun one next => next.row ≤ one.stopRow + 1)
    (apart : ∀ next, others.head? = some next → (more.getLastD one).stopRow + 1 < next.row)
    (stop : open_.stop = one.stop) (stopRow : open_.stopRow = one.stopRow) :
    (groupFrom open_ (more ++ others)).head? =
      some ⟨open_.start, (more.getLastD one).stop, open_.row, (more.getLastD one).stopRow,
        open_.first⟩ := by
  -- Only the last comment taken in matters to what is taken in next.
  induction more generalizing open_ one with
  | nil =>
    have same : open_ = ⟨open_.start, one.stop, open_.row, one.stopRow, open_.first⟩ := by
      rw [← stop, ← stopRow]
    cases others with
    | nil => exact congrArg some same
    | cons next others =>
      have far := apart next rfl
      rw [List.nil_append, groupFrom, if_neg (by rw [stopRow]; exact Nat.not_le.mpr far)]
      exact congrArg some same
  | cons next more ih =>
    obtain ⟨near, adjacent⟩ := List.isChain_cons_cons.mp adjacent
    rw [List.cons_append, groupFrom, if_pos (by rw [stopRow]; exact near)]
    rw [List.getLastD_cons] at apart ⊢
    exact ih adjacent apart rfl rfl

theorem head_commentGroups (group : FirstGroup comments) :
    (commentGroups comments).head? = some group.gathered := by
  obtain ⟨first, more, others, rfl, adjacent, apart⟩ := group
  exact groupFrom_head adjacent apart rfl rfl

theorem first_eq {comment : Comment} {rest : List Comment} (group : FirstGroup (comment :: rest)) :
    group.first = comment :=
  (List.cons.inj group.whole).1.symm

/-- Where there are comments, there is a first group of them. -/
theorem nonempty_of_cons (first : Comment) (rest : List Comment) :
    Nonempty (FirstGroup (first :: rest)) := by
  induction rest generalizing first with
  | nil => exact ⟨⟨first, [], [], rfl, .singleton first, by simp⟩⟩
  | cons next rest ih =>
    by_cases near : next.row ≤ first.stopRow + 1
    · -- The group that the next comment begins is the rest of this one.
      obtain ⟨group⟩ := ih next
      have same := group.first_eq
      obtain ⟨second, more, others, whole, adjacent, apart⟩ := group
      obtain rfl : second = next := same
      refine ⟨⟨first, second :: more, others, by rw [whole]; rfl, .cons_cons near adjacent, ?_⟩⟩
      rwa [List.getLastD_cons]
    · refine ⟨⟨first, [], next :: rest, rfl, .singleton first, ?_⟩⟩
      rintro other ⟨⟩
      exact Nat.not_le.mp near

end FirstGroup

/-- A comment begins with a slash. -/
theorem slash_of_comment {c : Char} {rest left text : List Char}
    (read : nextLexeme c rest = some (.comment text, left)) : c = '/' := by
  rw [nextLexeme_eq] at read
  split at read
  · cases read
  split at read
  · rename_i line
    simp only [Bool.and_eq_true, beq_iff_eq] at line
    exact line.1
  split at read
  · rename_i block
    simp only [Bool.and_eq_true, beq_iff_eq] at block
    exact block.1
  -- All that is left are words, numbers, literals and marks.
  split at read
  · cases read
  split at read
  · cases read
  unfold closedLexeme at read
  repeat' split at read
  all_goals simp at read

/-- From a comment on, the elements of a file are those of any text. -/
theorem FileLexes.from_comment {text after chars : List Char} {front behind : List Lexeme}
    (reads : FileLexes text (front ++ .comment chars :: behind) after) :
    ∃ between, Lexes between (.comment chars :: behind) after := by
  cases front with
  | nil =>
    cases reads with
    | plain _ reads => exact ⟨text, reads⟩
  | cons first front =>
    obtain ⟨between, -, lexes⟩ := reads.split (.inl (by simp))
    exact ⟨between, lexes⟩

/-- The text between two cuts. -/
theorem sliceBytes_append (before inner after : List Char) :
    sliceBytes (byteLength before) (byteLength before + byteLength inner)
      (before ++ (inner ++ after)) = inner := by
  rw [sliceBytes, cutAt_append]
  simp only [Nat.add_sub_cancel_left, cutAt_append]
  rfl

section Notice

variable {path : FilePath} {text : String}

/-- A stretch of a text, from one offset to another. -/
def IsStretch (text : String) (start stop : Nat) (stretch : String) : Prop :=
  ∃ before after, text.toList = before ++ (stretch.toList ++ after) ∧ byteLength before = start ∧
    byteLength before + byteLength stretch.toList = stop

/-- What stands from one offset to another is what is cut out there. -/
theorem IsStretch.slice {start stop : Nat} {stretch : String}
    (is : IsStretch text start stop stretch) :
    String.ofList (sliceBytes start stop text.toList) = stretch := by
  obtain ⟨before, after, whole, rfl, rfl⟩ := is
  rw [whole, sliceBytes_append, String.ofList_toList]

theorem IsStretch.eq {start stop : Nat} {stretch other : String}
    (is : IsStretch text start stop stretch) (also : IsStretch text start stop other) :
    stretch = other :=
  is.slice.symm.trans also.slice

/-- The comments of a file are those of its elements in front of the first token. -/
theorem comments_ofText (path : FilePath) (text : String) :
    (SourceFile.ofText path text).comments = leadComments 0 0 (lexemes text.toList).1 := by
  cases made : placeTokens {} (lexemes text.toList).1 with
  | nil => exact absurd made (placeTokens_ne_nil _ _)
  | cons token rest =>
    have own : (SourceFile.ofText path text).comments = token.comments := by
      rw [SourceFile.ofText, tokens]
      simp only [made]
      rfl
    exact own.trans (comments_of_placeTokens rfl made)

/-- The elements that a first group of comments is read from, wherever they stand. -/
structure FirstGroup.IsLead (group : FirstGroup (SourceFile.ofText path text).comments)
    (lead : List Lexeme) : Prop where
  stands : IsStretch text group.first.start group.last.stop (String.ofList (lexemeChars lead))
  bare : AreBare lead
  members : group.members = (leadComments 0 0 lead).map fun comment =>
    comment.shifted group.first.start group.first.row
  stopRow : group.last.stopRow = group.first.row + (lexemeChars lead).count '\n'
  again : ∀ rest, FileLexes (lexemeChars lead ++ '\n' :: rest) lead ('\n' :: rest)

/-- The first group of comments is read from elements that stand together, and is read from them
again in front of any line break. -/
theorem FirstGroup.exists_lead (group : FirstGroup (SourceFile.ofText path text).comments) :
    ∃ lead, group.IsLead lead := by
  -- The elements are those from the first comment to the last of the group.
  obtain ⟨after, reads, -⟩ := FileLexes.all text.toList
  have all := (comments_ofText path text).symm.trans group.whole
  obtain ⟨front, chars, back, whole, is, behind⟩ := exists_lead_of_comments all
  obtain ⟨inner, left, rfl, bare, within, stop, stopRow⟩ := exists_bare_of_comments behind
  rw [whole] at reads
  have split := reads.chars
  obtain ⟨between, lexes⟩ := reads.from_comment
  rw [← List.cons_append] at lexes
  obtain ⟨rest, lead, -⟩ := lexes.split
  have own : lexemeChars (.comment chars :: inner) = chars ++ lexemeChars inner := rfl
  have start : byteLength (lexemeChars front) = group.first.start := by
    rw [is]
    exact (Nat.zero_add _).symm
  have firstText : group.first.text = String.ofList chars := by rw [is]
  have firstStop : group.first.stop = group.first.start + byteLength chars := by rw [is]
  have firstStopRow : group.first.stopRow = group.first.row + chars.count '\n' := by rw [is]
  have last : group.last = group.more.getLast?.getD group.first := List.getLastD_eq_getLast?
  rw [Option.getD_map, ← last] at stop stopRow
  refine ⟨.comment chars :: inner, ⟨lexemeChars front, lexemeChars left ++ after, ?_, start, ?_⟩,
    by simpa [AreBare] using bare, ?_, ?_, fun rest => ?_⟩
  · rw [split]
    simp
  · rw [stop, firstStop, start, String.toList_ofList, own, byteLength_append, Nat.add_assoc]
  · have here := leadComments_shifted group.first.start group.first.row 0 0
      (.comment chars :: inner)
    rw [← here, FirstGroup.members, Nat.add_zero, Nat.add_zero, leadComments, ← firstStop,
      ← firstStopRow, within, ← firstText]
  · rw [stopRow, firstStopRow, own, List.count_append, Nat.add_assoc]
  · -- They begin with a slash, and a break may follow any of them.
    refine .plain (fun c is => ?_) (lead.seam (.of_break _ rest) (.of_break _ _ rest))
    cases lead with
    | cons one others =>
      obtain ⟨taken, made, -⟩ := nextLexeme_split one
      rw [lexemeChars_cons, made] at is
      obtain rfl := Option.some.inj is
      rw [slash_of_comment one]
      decide

/-- Whether a comment mentions a copyright, in whatever case. -/
def Comment.MentionsCopyright (comment : Comment) : Prop :=
  "copyright".toList <:+: (Unicode.lowercase comment.text).toList

/-- A text occurs in another if it stands anywhere inside it. -/
theorem occursIn_iff (needle text : List Char) :
    occursIn needle text = true ↔ needle <:+: text := by
  induction text with
  | nil => simp [occursIn]
  | cons c rest ih =>
    rw [occursIn, Bool.or_eq_true, ih, List.infix_cons_iff, List.isPrefixOf_iff_prefix]

/-- The first group of comments stands in front of the package clause, with a row between them, and
does not begin with a directive. -/
def FirstGroup.IsHeading {file : SourceFile} (group : FirstGroup file.comments) : Prop :=
  ∃ clause, file.package? = some clause ∧ group.first.start < clause.start ∧
    group.last.stopRow + 1 < clause.row ∧ isDirective group.first.text = false

/-- Where there is a first group of comments, its first comment decides whether it is a notice. -/
theorem FirstGroup.copyrightNotice?_eq
    (group : FirstGroup (SourceFile.ofText path text).comments) :
    (SourceFile.ofText path text).copyrightNotice? =
      (SourceFile.ofText path text).package?.bind fun clause =>
        if clause.start ≤ group.first.start || clause.row ≤ group.last.stopRow + 1 ||
          isDirective group.first.text then none
        else if occursIn "copyright".toList (Unicode.lowercase group.first.text).toList then
          some (String.ofList (sliceBytes group.first.start group.last.stop text.toList))
        else none := by
  have head : (SourceFile.ofText path text).leadingGroups.head? = some group.gathered :=
    group.head_commentGroups
  rw [SourceFile.copyrightNotice?, head]
  rfl

/-- The notice of a file is the text of its first group of comments, if that is a heading and its
first comment mentions a copyright. -/
theorem copyrightNotice?_eq_some {notice : String} :
    (SourceFile.ofText path text).copyrightNotice? = some notice ↔
      ∃ group : FirstGroup (SourceFile.ofText path text).comments, group.IsHeading ∧
        group.first.MentionsCopyright ∧
        IsStretch text group.first.start group.last.stop notice := by
  constructor
  · intro found
    obtain ⟨group⟩ : Nonempty (FirstGroup (SourceFile.ofText path text).comments) := by
      obtain ⟨clause, -, found⟩ := Option.bind_eq_some_iff.mp found
      obtain ⟨gathered, head, -⟩ := Option.bind_eq_some_iff.mp found
      rw [SourceFile.leadingGroups] at head
      cases all : (SourceFile.ofText path text).comments with
      | nil =>
        rw [all] at head
        cases head
      | cons comment more => exact FirstGroup.nonempty_of_cons comment more
    rw [group.copyrightNotice?_eq] at found
    obtain ⟨clause, declared, found⟩ := Option.bind_eq_some_iff.mp found
    split at found
    · cases found
    rename_i heads
    split at found
    · rename_i mentions
      simp only [Bool.or_eq_true, decide_eq_true_eq, not_or, Nat.not_le, Bool.not_eq_true] at heads
      obtain ⟨⟨above, apart⟩, plain⟩ := heads
      obtain ⟨lead, is⟩ := group.exists_lead
      refine ⟨group, ⟨clause, declared, above, apart, plain⟩, (occursIn_iff _ _).mp mentions, ?_⟩
      -- What is cut out is what stands there.
      rw [is.stands.slice] at found
      exact Option.some.inj found ▸ is.stands
    · cases found
  · rintro ⟨group, ⟨clause, declared, above, apart, plain⟩, mentions, stands⟩
    have heads : (decide (clause.start ≤ group.first.start) ||
        decide (clause.row ≤ group.last.stopRow + 1) || isDirective group.first.text) = false := by
      simp [plain, above, apart]
    rw [group.copyrightNotice?_eq, declared, Option.bind_some, heads, if_neg Bool.false_ne_true,
      if_pos ((occursIn_iff _ _).mpr mentions), stands.slice]

/-- The notice of a file is read as comments in front of any line break. -/
theorem lexes_notice {path : FilePath} {text notice : String}
    (found : (SourceFile.ofText path text).copyrightNotice? = some notice) : ∃ lead,
      lexemeChars lead = notice.toList ∧ IsGap lead ∧
      ∀ rest, FileLexes (notice.toList ++ '\n' :: rest) lead ('\n' :: rest) := by
  obtain ⟨group, -, -, stands⟩ := copyrightNotice?_eq_some.mp found
  obtain ⟨lead, is⟩ := group.exists_lead
  have same : lexemeChars lead = notice.toList := by
    rw [stands.eq is.stands, String.toList_ofList]
  exact ⟨lead, same, is.bare.isGap, same ▸ is.again⟩

end Notice

section Clause

variable {name : String}

/-- The elements of a package clause. -/
def clauseLexemes (name : String) : List Lexeme :=
  [.token .keyword "package".toList, .blank ' ', .token .word name.toList]

theorem lexes_clause (is : isName name.toList = true) {rest : List Char}
    (ends : ∀ d, rest.head? = some d → Unicode.isIdentifierContinue d = false) :
    Lexes (("package " ++ name).toList ++ rest) (clauseLexemes name) rest := by
  have key : nextLexeme 'p' (['a', 'c', 'k', 'a', 'g', 'e'] ++ ' ' :: (name.toList ++ rest)) =
      some (wordLexeme ['p', 'a', 'c', 'k', 'a', 'g', 'e'], ' ' :: (name.toList ++ rest)) :=
    nextLexeme_word (by decide) (List.all_eq_true.mp (by decide)) (by rintro d ⟨⟩; decide)
  have keyword : wordLexeme ['p', 'a', 'c', 'k', 'a', 'g', 'e'] =
      .token .keyword "package".toList := by decide
  have whole : ("package " ++ name).toList ++ rest =
      'p' :: (['a', 'c', 'k', 'a', 'g', 'e'] ++ ' ' :: (name.toList ++ rest)) := by
    rw [String.toList_append]
    rfl
  rw [whole, clauseLexemes, ← keyword]
  exact .cons key (.cons (nextLexeme_blank (by decide) _) (lexes_name is ends))

/-- A clause makes the tokens of its keyword and its name. -/
theorem tokensFrom_clause (reach : Reach) (name : String) : ∃ key word,
    tokensFrom reach (clauseLexemes name) = [key, word] ∧ key.isMark "package" = true ∧
      word.kind = .word ∧ word.stop = (reachBehind reach (clauseLexemes name)).offset ∧
      (reachBehind reach (clauseLexemes name)).ending = true ∧
      (reachBehind reach (clauseLexemes name)).gap = [] ∧
      key.start = reach.offset ∧ key.row = reach.row ∧ word.text = name :=
  ⟨_, _, rfl, rfl, rfl, Reach.stop_token _ _ _, rfl, rfl, rfl, rfl, String.ofList_toList⟩

/-- The clause that is read behind some elements. -/
def clauseBehind (lead : List Lexeme) (name : String) : PackageClause :=
  ⟨name, byteLength (lexemeChars lead),
    byteLength (lexemeChars lead ++ ("package " ++ name).toList), (lexemeChars lead).count '\n'⟩

/-- The clause at the end of the first line with a token is the first item, and stands there. -/
theorem allItems_clauseBehind {text after : List Char} {lead behind : List Lexeme}
    (is : isName name.toList = true)
    (reads : FileLexes text (lead ++ (clauseLexemes name ++ .blank '\n' :: behind)) after)
    (none : tokensFrom {} lead = []) : ∃ taken, ∃ reach : Reach,
      allItems (placeTokens {} (lead ++ (clauseLexemes name ++ .blank '\n' :: behind))) =
        ((.package (clauseBehind lead name), taken) ::
            (allItems (placeTokens reach (.blank '\n' :: behind))).1,
          (allItems (placeTokens reach (.blank '\n' :: behind))).2) ∧
      reach.offset = (clauseBehind lead name).stop ∧ reach.ending = true ∧ reach.gap = [] ∧
      Closed (placeTokens reach (.blank '\n' :: behind)) := by
  obtain ⟨key, word, made, keyword, named, stop, ending, gap, start, row, text⟩ :=
    tokensFrom_clause (reachBehind {} lead) name
  have chars : lexemeChars (clauseLexemes name) = ("package " ++ name).toList := by
    have ends : ∀ d, ([] : List Char).head? = some d → Unicode.isIdentifierContinue d = false := by
      simp
    have whole := (lexes_clause is ends).chars
    rw [List.append_nil, List.append_nil] at whole
    exact whole.symm
  have offset : (reachBehind (reachBehind {} lead) (clauseLexemes name)).offset =
      (clauseBehind lead name).stop := by
    rw [reachBehind_offset, reachBehind_offset, chars, clauseBehind, byteLength_append]
    exact congrArg (· + _) (Nat.zero_add _)
  have read : (⟨word.text, key.start, word.stop, key.row⟩ : PackageClause) =
      clauseBehind lead name := by
    rw [stop, start, row, text, offset, reachBehind_offset, reachBehind_row, clauseBehind]
    exact congrArg₂ (fun start row => PackageClause.mk name start _ row) (Nat.zero_add _)
      (Nat.zero_add _)
  have closed := reads.closed {}
  rw [placeTokens_append, none, List.nil_append, placeTokens_append, made] at closed ⊢
  generalize reachBehind (reachBehind {} lead) (clauseLexemes name) = reach at *
  have last : Closed (placeTokens reach (.blank '\n' :: behind)) :=
    closed.of_append (placeTokens_ne_nil _ _)
  have ends : endsItem (placeTokens reach (.blank '\n' :: behind)) = true := by
    rw [placeTokens_cons, (tokenAt_break ending).1]
    rfl
  have one : ItemAt ([key, word] ++ placeTokens reach (.blank '\n' :: behind)) _ [key, word] _ :=
    ⟨rfl, by simp, item_package keyword named _, ends⟩
  have plain := Token.plain_of_isMark keyword
  exact ⟨_, reach, read ▸ one.allItems plain.1 plain.2 last, offset, ending, gap, last⟩

/-- The clause at the end of the first line with a token is the first item. -/
theorem allItems_clause {text after : List Char} {lead behind : List Lexeme}
    (is : isName name.toList = true)
    (reads : FileLexes text (lead ++ (clauseLexemes name ++ .blank '\n' :: behind)) after)
    (none : tokensFrom {} lead = []) : ∃ clause taken, ∃ reach : Reach,
      allItems (placeTokens {} (lead ++ (clauseLexemes name ++ .blank '\n' :: behind))) =
        ((.package clause, taken) :: (allItems (placeTokens reach (.blank '\n' :: behind))).1,
          (allItems (placeTokens reach (.blank '\n' :: behind))).2) ∧
      clause.stop = byteLength (lexemeChars lead ++ ("package " ++ name).toList) ∧
      reach.offset = clause.stop ∧ reach.ending = true ∧ reach.gap = [] ∧
      Closed (placeTokens reach (.blank '\n' :: behind)) := by
  obtain ⟨taken, reach, items, found⟩ := allItems_clauseBehind is reads none
  exact ⟨_, taken, reach, items, rfl, found⟩

end Clause

end Scaffold.Go
