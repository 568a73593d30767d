import Scaffold.Proofs.Go.ItemReader

/-! The items of a file, one after the other: what stands in front of an item and behind it. -/

namespace Scaffold.Go

open Reading Reader

/-- Whether an item may end in front of the tokens that are left. -/
def endsItem (after : List Token) : Bool :=
  (after.head?.map fun next => next.kind == .terminator || next.kind == .eof).getD true

/-- The tokens behind the ends of statements in front. -/
def behindEnds (tokens : List Token) : List Token :=
  tokens.dropWhile (·.kind == .terminator)

/-- The items of a file, each with the tokens it is made of. -/
def itemsTaken : Nat → List Token → List (Item × List Token) × Bool
  | 0, _ => ([], false)
  | limit + 1, tokens =>
    match behindEnds tokens with
    | [] => ([], true)
    | first :: rest =>
      if first.kind == .eof then ([], true)
      else match withTaken item (first :: rest) with
        | none => ([], false)
        | some (read, after) =>
          if endsItem after then
            let (more, complete) := itemsTaken limit after
            (read :: more, complete)
          else ([read], false)

/-- Keeping the tokens of the items changes nothing about the items. -/
theorem itemsWithin_eq (limit : Nat) (tokens : List Token) :
    itemsWithin limit tokens =
      ((itemsTaken limit tokens).1.map Prod.fst, (itemsTaken limit tokens).2) := by
  induction limit generalizing tokens with
  | zero => rfl
  | succ limit ih =>
    rw [itemsWithin, itemsTaken, behindEnds]
    cases tokens.dropWhile (·.kind == .terminator) with
    | nil => rfl
    | cons first rest =>
      simp only [withTaken_run]
      cases item (first :: rest) with
      | none => split <;> rfl
      | some pair =>
        simp only [Option.map_some, ih, endsItem]
        split
        · rfl
        · by_cases ends : (pair.2.head?.map fun next =>
            next.kind == .terminator || next.kind == .eof).getD true = true <;> simp [ends]

/-- Tokens of which the last one, and no other, is the end of the file. -/
def Closed (tokens : List Token) : Prop :=
  ∃ front last, tokens = front ++ [last] ∧ last.kind = .eof ∧ ∀ token ∈ front, token.kind ≠ .eof

/-- Items and the tokens they are made of, alike one by one. -/
def AlikeItems (first second : List (Item × List Token)) : Prop :=
  List.Forall₂ (fun one other => one.1.Like other.1 ∧ List.Forall₂ Token.Like one.2 other.2)
    first second

/-- The tokens `rest` begin with an item, made of `taken`, in front of `after`. -/
structure ItemAt (rest : List Token) (read : Item) (taken after : List Token) : Prop where
  split : rest = taken ++ after
  takes : taken ≠ []
  run : item rest = some (read, after)
  ends : endsItem after = true

/-- Reading some items leaves the tokens `behind`, in front of which no statement ends. -/
inductive ReadsItems : List Token → List (Item × List Token) → List Token → Prop
  | nil {tokens : List Token} : ReadsItems tokens [] (behindEnds tokens)
  | cons {tokens rest taken after behind : List Token} {first : Token} {read : Item}
      {items : List (Item × List Token)} (start : behindEnds tokens = first :: rest)
      (more : first.kind ≠ .eof) (one : ItemAt (first :: rest) read taken after)
      (others : ReadsItems after items behind) :
      ReadsItems tokens ((read, taken) :: items) behind

/-- Reading items comes to a breach behind some of them. -/
inductive StopsItems : List Token → List (Item × List Token) → Prop
  | unread {tokens rest : List Token} {first : Token} (start : behindEnds tokens = first :: rest)
      (more : first.kind ≠ .eof) (none : item (first :: rest) = none) : StopsItems tokens []
  | unended {tokens rest taken after : List Token} {first : Token} {read : Item}
      (start : behindEnds tokens = first :: rest) (more : first.kind ≠ .eof)
      (split : first :: rest = taken ++ after) (run : item (first :: rest) = some (read, after))
      (endless : endsItem after = false) : StopsItems tokens [(read, taken)]
  | cons {tokens rest taken after : List Token} {first : Token} {read : Item}
      {items : List (Item × List Token)} (start : behindEnds tokens = first :: rest)
      (more : first.kind ≠ .eof) (one : ItemAt (first :: rest) read taken after)
      (others : StopsItems after items) : StopsItems tokens ((read, taken) :: items)

namespace AgreeTo

/-- Tokens that agree begin with alike ends of statements, as many on either side. -/
theorem behindEnds {count : Nat} {xs ys : List Token} (agree : AgreeTo count xs ys) :
    ∃ ended ≤ count, behindEnds xs = xs.drop ended ∧ behindEnds ys = ys.drop ended := by
  induction agree with
  | @bar x y xs ys like barred =>
    have plain : ∀ token : Token, token.isBar = true → (token.kind == .terminator) = false := by
      intro token barred
      rcases Token.kind_of_isBar barred with kind | kind | kind <;> simp [kind]
    have other : y.isBar = true := like.isBar ▸ barred
    exact ⟨0, Nat.le_refl _, by simp [Go.behindEnds, plain x barred],
      by simp [Go.behindEnds, plain y other]⟩
  | @step count x y xs ys like rest ih =>
    by_cases ends : x.kind = .terminator
    · obtain ⟨ended, within, one, other⟩ := ih
      have also : y.kind = .terminator := like.1 ▸ ends
      refine ⟨ended + 1, by omega, ?_, ?_⟩
      · simpa [Go.behindEnds, ends] using one
      · simpa [Go.behindEnds, also] using other
    · have also : y.kind ≠ .terminator := like.1 ▸ ends
      exact ⟨0, Nat.zero_le _, by simp [Go.behindEnds, ends], by simp [Go.behindEnds, also]⟩

/-- The tokens up to the bar are alike. -/
theorem take {count taken : Nat} {xs ys : List Token} (agree : AgreeTo count xs ys)
    (within : taken ≤ count) : List.Forall₂ Token.Like (xs.take taken) (ys.take taken) := by
  induction taken generalizing count xs ys with
  | zero => exact .nil
  | succ taken ih =>
    cases agree with
    | bar _ _ => omega
    | step like rest => exact .cons like (ih rest (by omega))

/-- An item may end in front of the tokens on both sides or on neither. -/
theorem endsItem {count : Nat} {xs ys : List Token} (agree : AgreeTo count xs ys) :
    endsItem xs = endsItem ys := by
  cases agree with
  | bar like _ => simp [Go.endsItem, like.1]
  | step like _ => simp [Go.endsItem, like.1]

end AgreeTo

/-- What is read in front of a bar is read on both sides, and comes to the bar or to a breach. -/
theorem itemsRead_agree {count : Nat} {xs ys : List Token} (agree : AgreeTo count xs ys)
    (inside : ∀ token ∈ xs.take count, token.kind ≠ .eof) :
    (∃ items others, AlikeItems items others ∧ ReadsItems xs items (xs.drop count) ∧
      ReadsItems ys others (ys.drop count)) ∨
    ∃ items others, AlikeItems items others ∧ StopsItems xs items ∧ StopsItems ys others := by
  -- Each item brings the bar nearer.
  induction count using Nat.strongRecOn generalizing xs ys with
  | ind count ih =>
    obtain ⟨ended, within, one, other⟩ := agree.behindEnds
    rcases Nat.lt_or_ge ended count with below | reached
    · have near := agree.drop within
      have inner : ∀ token ∈ (xs.drop ended).take (count - ended), token.kind ≠ .eof := by
        intro token member
        rw [← List.drop_take] at member
        exact inside token (List.mem_of_mem_drop member)
      obtain ⟨left, leftover⟩ : ∃ left, count - ended = left + 1 := ⟨count - ended - 1, by omega⟩
      have reached : xs.drop count = (xs.drop ended).drop (left + 1) ∧
          ys.drop count = (ys.drop ended).drop (left + 1) := by
        rw [List.drop_drop, List.drop_drop, ← leftover, Nat.add_sub_cancel' within]
        exact ⟨rfl, rfl⟩
      rw [reached.1, reached.2]
      rw [leftover] at near inner
      generalize xs.drop ended = tokens at near inner one
      generalize ys.drop ended = others at near other
      cases near with
      | @step _ x y xs' ys' like rest =>
        have more : x.kind ≠ .eof := inner x (by simp)
        have also : y.kind ≠ .eof := like.1 ▸ more
        rcases Alike.upTo (fun _ => .item) (.step like rest) with
          ⟨none, none'⟩ | ⟨read, read', taken, run, run', same, low, high⟩
        · exact .inr ⟨[], [], .nil, .unread one more none, .unread other also none'⟩
        · have all : AgreeTo (left + 1) (x :: xs') (y :: ys') := .step like rest
          have pair := all.take high
          have behind := all.drop high
          have takes : ∀ (token : Token) (tokens : List Token),
              (token :: tokens).take taken ≠ [] := by
            intro token tokens
            obtain ⟨fewer, rfl⟩ : ∃ fewer, taken = fewer + 1 := ⟨taken - 1, by omega⟩
            simp
          by_cases ends : endsItem ((x :: xs').drop taken) = true
          · have first : ItemAt (x :: xs') read _ _ :=
              ⟨(List.take_append_drop taken _).symm, takes _ _, run, ends⟩
            have second : ItemAt (y :: ys') read' _ _ :=
              ⟨(List.take_append_drop taken _).symm, takes _ _, run', behind.endsItem ▸ ends⟩
            have shorter : left + 1 - taken < count := by omega
            rcases ih _ shorter behind (by
              intro token member
              rw [← List.drop_take] at member
              exact inner token (List.mem_of_mem_drop member)) with
              ⟨items, items', values, reads, reads'⟩ | ⟨items, items', values, stops, stops'⟩
            · rw [List.drop_drop, Nat.add_sub_cancel' high] at reads reads'
              exact .inl ⟨_, _, .cons ⟨same, pair⟩ values, .cons one more first reads,
                .cons other also second reads'⟩
            · exact .inr ⟨_, _, .cons ⟨same, pair⟩ values, .cons one more first stops,
                .cons other also second stops'⟩
          · have endless : endsItem ((x :: xs').drop taken) = false := by simpa using ends
            exact .inr ⟨_, _, .cons ⟨same, pair⟩ .nil,
              .unended one more (List.take_append_drop taken _).symm run endless,
              .unended other also (List.take_append_drop taken _).symm run'
                (behind.endsItem ▸ endless)⟩
    · obtain rfl : ended = count := by omega
      exact .inl ⟨[], [], .nil, one ▸ .nil, other ▸ .nil⟩

namespace Closed

variable {tokens : List Token}

/-- A closed list agrees with itself up to its end. -/
theorem agree (closed : Closed tokens) : ∃ count last, AgreeTo count tokens tokens ∧
    tokens.drop count = [last] ∧ last.kind = .eof ∧
      ∀ token ∈ tokens.take count, token.kind ≠ .eof := by
  obtain ⟨front, last, rfl, eof, inside⟩ := closed
  have barred : last.isBar = true := by simp [Token.isBar, eof]
  exact ⟨front.length, last, .of_append front (.refl last) barred, by simp, eof, by simpa using inside⟩

/-- What is behind some tokens of a closed list is closed, unless nothing is. -/
theorem of_append {front back : List Token} (closed : Closed (front ++ back))
    (more : back ≠ []) : Closed back := by
  obtain ⟨before, last, split, eof, inside⟩ := closed
  rw [← List.dropLast_append_getLast more, ← List.append_assoc] at split
  obtain ⟨same, final⟩ := List.append_inj' split rfl
  refine ⟨back.dropLast, back.getLast more, (List.dropLast_append_getLast more).symm, ?_, ?_⟩
  · simpa [List.singleton_inj.mp final] using eof
  · intro token member
    exact inside token (same ▸ List.mem_append_right _ member)

/-- The end of the file is not in front of anything. -/
theorem inside_of_append {front back : List Token} (closed : Closed (front ++ back))
    (more : back ≠ []) : ∀ token ∈ front, token.kind ≠ .eof := by
  obtain ⟨before, last, split, eof, inside⟩ := closed
  rw [← List.dropLast_append_getLast more, ← List.append_assoc] at split
  obtain ⟨same, -⟩ := List.append_inj' split rfl
  intro token member
  exact inside token (same ▸ List.mem_append_left _ member)

theorem ne_nil (closed : Closed tokens) : tokens ≠ [] := by
  obtain ⟨front, last, rfl, -⟩ := closed
  simp

/-- An item leaves at least the end of the file. -/
theorem of_item {rest after : List Token} {first : Token} {read : Item}
    (closed : Closed (first :: rest)) (more : first.kind ≠ .eof)
    (run : item (first :: rest) = some (read, after)) :
    ∃ taken, first :: rest = taken ++ after ∧ taken ≠ [] ∧ Closed after := by
  obtain ⟨count, last, agree, final, eof, -⟩ := closed.agree
  cases count with
  | zero =>
    cases final
    exact absurd eof more
  | succ count =>
    rcases Alike.upTo (fun _ => .item) agree with ⟨none, -⟩ | ⟨_, _, taken, run', -, -, low, high⟩
    · rw [none] at run
      cases run
    · rw [run'] at run
      cases run
      have split := (List.take_append_drop taken (first :: rest)).symm
      have left : (first :: rest).drop taken ≠ [] := by
        intro empty
        have short := List.drop_eq_nil_iff.mp empty
        have := agree.lt_length.1
        omega
      obtain ⟨fewer, rfl⟩ : ∃ fewer, taken = fewer + 1 := ⟨taken - 1, by omega⟩
      exact ⟨_, split, by simp, (split ▸ closed).of_append left⟩

end Closed

/-- The items of all tokens. -/
def allItems (tokens : List Token) : List (Item × List Token) × Bool :=
  itemsTaken (tokens.length + 1) tokens

theorem behindEnds_behindEnds (tokens : List Token) :
    behindEnds (behindEnds tokens) = behindEnds tokens := by
  induction tokens with
  | nil => rfl
  | cons token rest ih =>
    by_cases ends : token.kind = .terminator
    · simpa [behindEnds, ends] using ih
    · simp [behindEnds, ends]

theorem length_behindEnds_le (tokens : List Token) :
    (behindEnds tokens).length ≤ tokens.length :=
  (List.dropWhile_sublist _).length_le

/-- One item is read, and then the others. -/
theorem itemsTaken_item {tokens rest taken after : List Token} {first : Token} {read : Item}
    (start : behindEnds tokens = first :: rest) (more : first.kind ≠ .eof)
    (split : first :: rest = taken ++ after) (run : item (first :: rest) = some (read, after))
    (limit : Nat) :
    itemsTaken (limit + 1) tokens =
      if endsItem after then
        ((read, taken) :: (itemsTaken limit after).1, (itemsTaken limit after).2)
      else ([(read, taken)], false) := by
  have notEof : (first.kind == .eof) = false := by simpa using more
  rw [itemsTaken, start]
  simp only [withTaken_run, run, notEof, Bool.false_eq_true, if_false, Option.map_some]
  rw [split]
  simp

/-- Items up to a breach are all the items there are. -/
theorem StopsItems.itemsTaken {tokens : List Token} {items : List (Item × List Token)}
    (stops : StopsItems tokens items) {limit : Nat} (enough : tokens.length < limit) :
    itemsTaken limit tokens = (items, false) := by
  induction stops generalizing limit with
  | @unread tokens rest first start more none =>
    obtain ⟨limit, rfl⟩ : ∃ fewer, limit = fewer + 1 := ⟨limit - 1, by omega⟩
    have notEof : (first.kind == .eof) = false := by simpa using more
    rw [Go.itemsTaken, start]
    simp [withTaken_run, none, notEof]
  | @unended tokens rest taken after first read start more split run endless =>
    obtain ⟨limit, rfl⟩ : ∃ fewer, limit = fewer + 1 := ⟨limit - 1, by omega⟩
    rw [itemsTaken_item start more split run, endless]
    rfl
  | @cons tokens rest taken after first read items start more one _ ih =>
    obtain ⟨limit, rfl⟩ : ∃ fewer, limit = fewer + 1 := ⟨limit - 1, by omega⟩
    have shorter : after.length < tokens.length := by
      have := length_behindEnds_le tokens
      have := List.length_pos_of_ne_nil one.takes
      rw [start, one.split, List.length_append] at *
      omega
    rw [itemsTaken_item start more one.split one.run, one.ends, ih (by omega)]
    rfl

/-- Items read in front of others are the first ones of all. -/
theorem ReadsItems.itemsTaken {tokens behind : List Token} {items : List (Item × List Token)}
    (reads : ReadsItems tokens items behind) {limit : Nat} (enough : tokens.length < limit) :
    ∃ left, behind.length < left ∧ itemsTaken limit tokens =
      (items ++ (itemsTaken left behind).1, (itemsTaken left behind).2) := by
  induction reads generalizing limit with
  | @nil tokens =>
    have := length_behindEnds_le tokens
    refine ⟨limit, by omega, ?_⟩
    cases limit with
    | zero => rfl
    | succ limit => rw [Go.itemsTaken, Go.itemsTaken, behindEnds_behindEnds, List.nil_append]
  | @cons tokens rest taken after behind first read items start more one _ ih =>
    obtain ⟨limit, rfl⟩ : ∃ fewer, limit = fewer + 1 := ⟨limit - 1, by omega⟩
    have shorter : after.length < tokens.length := by
      have := length_behindEnds_le tokens
      have := List.length_pos_of_ne_nil one.takes
      rw [start, one.split, List.length_append] at *
      omega
    obtain ⟨left, enough, same⟩ := ih (by omega : after.length < limit)
    refine ⟨left, enough, ?_⟩
    rw [itemsTaken_item start more one.split one.run, one.ends, same]
    rfl

/-- The limit on the number of items never matters. -/
theorem itemsTaken_eq_allItems {tokens : List Token} (closed : Closed tokens) {limit : Nat}
    (enough : tokens.length < limit) : itemsTaken limit tokens = allItems tokens := by
  obtain ⟨count, last, agree, final, eof, inside⟩ := closed.agree
  have atEnd : ∀ limit, 0 < limit → itemsTaken limit [last] = ([], true) := by
    intro limit positive
    obtain ⟨limit, rfl⟩ : ∃ fewer, limit = fewer + 1 := ⟨limit - 1, by omega⟩
    simp [itemsTaken, behindEnds, eof]
  rcases itemsRead_agree agree inside with ⟨items, -, -, reads, -⟩ | ⟨items, -, -, stops, -⟩
  · rw [final] at reads
    obtain ⟨left, positive, one⟩ := reads.itemsTaken enough
    obtain ⟨left', positive', other⟩ := reads.itemsTaken (Nat.lt_succ_self _)
    rw [allItems, one, other, atEnd left (by omega), atEnd left' (by omega)]
  · rw [allItems, stops.itemsTaken enough, stops.itemsTaken (Nat.lt_succ_self _)]

/-- The end of the file holds no item. -/
theorem allItems_eof {last : Token} (eof : last.kind = .eof) : allItems [last] = ([], true) := by
  simp [allItems, itemsTaken, behindEnds, eof]

/-- Items read in front of others are the first ones of all. -/
theorem ReadsItems.allItems {tokens behind : List Token} {items : List (Item × List Token)}
    (reads : ReadsItems tokens items behind) (closed : Closed behind) :
    allItems tokens = (items ++ (allItems behind).1, (allItems behind).2) := by
  obtain ⟨left, enough, same⟩ := reads.itemsTaken (Nat.lt_succ_self _)
  rw [Go.allItems, same, itemsTaken_eq_allItems closed enough]

/-- The item that tokens begin with is the first of all. -/
theorem ItemAt.allItems {first : Token} {rest taken after : List Token} {read : Item}
    (one : ItemAt (first :: rest) read taken after) (plain : first.kind ≠ .terminator)
    (more : first.kind ≠ .eof) (closed : Closed after) :
    allItems (first :: rest) = ((read, taken) :: (allItems after).1, (allItems after).2) := by
  have start : behindEnds (first :: rest) = first :: rest := by simp [behindEnds, plain]
  have shorter : after.length < (first :: rest).length := by
    have := List.length_pos_of_ne_nil one.takes
    rw [one.split, List.length_append]
    omega
  rw [Go.allItems, itemsTaken_item start more one.split one.run, one.ends,
    itemsTaken_eq_allItems closed shorter]
  rfl

/-- Ends of statements in front of items make no difference. -/
theorem allItems_terminator {ended : Token} {tokens : List Token} (ends : ended.kind = .terminator)
    (closed : Closed tokens) : allItems (ended :: tokens) = allItems tokens := by
  have start : behindEnds (ended :: tokens) = behindEnds tokens := by simp [behindEnds, ends]
  rw [← itemsTaken_eq_allItems closed (Nat.lt_add_right 1 (Nat.lt_succ_self _))]
  rw [allItems, List.length_cons, itemsTaken, itemsTaken, start]

/-- Where an item comes from. -/
theorem itemsTaken_mem {tokens taken : List Token} {read : Item} {limit : Nat}
    (closed : Closed tokens) (member : (read, taken) ∈ (itemsTaken limit tokens).1) :
    ∃ front after, tokens = front ++ (taken ++ after) ∧ taken ≠ [] ∧ Closed after ∧
      item (taken ++ after) = some (read, after) ∧
      ((itemsTaken limit tokens).2 = true → endsItem after = true) := by
  induction limit generalizing tokens with
  | zero => simp [itemsTaken] at member
  | succ limit ih =>
    have ended : tokens = tokens.takeWhile (·.kind == .terminator) ++ behindEnds tokens :=
      List.takeWhile_append_dropWhile.symm
    cases start : behindEnds tokens with
    | nil => simp [itemsTaken, start] at member
    | cons first rest =>
      have here : Closed (first :: rest) := by
        rw [ended, start] at closed
        exact closed.of_append (by simp)
      by_cases eof : first.kind = .eof
      · simp [itemsTaken, start, eof] at member
      · cases run : item (first :: rest) with
        | none => simp [itemsTaken, start, eof, withTaken_run, run] at member
        | some pair =>
          obtain ⟨found, after⟩ := pair
          obtain ⟨own, split, takes, behind⟩ := here.of_item eof run
          rw [itemsTaken_item start eof split run] at member ⊢
          rw [start, split] at ended
          generalize tokens.takeWhile (·.kind == .terminator) = lead at ended
          by_cases ends : endsItem after = true
          · rw [if_pos ends] at member ⊢
            rcases List.mem_cons.mp member with same | later
            · cases same
              exact ⟨_, after, ended, takes, behind, split ▸ run, fun _ => ends⟩
            · obtain ⟨front, left, split', takes', behind', run', ends'⟩ := ih behind later
              rw [split'] at ended
              exact ⟨lead ++ own ++ front, left, by rw [ended]; simp, takes', behind', run', ends'⟩
          · rw [if_neg ends] at member ⊢
            cases List.mem_singleton.mp member
            exact ⟨_, after, ended, takes, behind, split ▸ run, fun whole => by cases whole⟩

/-- All items of lists that look the same are alike. -/
theorem allItems_alike {xs ys : List Token} (like : List.Forall₂ Token.Like xs ys)
    (closed : Closed xs) : AlikeItems (allItems xs).1 (allItems ys).1 ∧
      (allItems xs).2 = (allItems ys).2 := by
  obtain ⟨front, last, rfl, eof, inside⟩ := closed
  have barred : last.isBar = true := by simp [Token.isBar, eof]
  have agree := AgreeTo.of_forall₂ like rfl barred
  have final := List.forall₂_drop front.length like
  rw [List.drop_left] at final
  rcases itemsRead_agree agree (by simpa using inside) with
    ⟨items, others, values, reads, reads'⟩ | ⟨items, others, values, stops, stops'⟩
  · rw [List.drop_left] at reads
    generalize ys.drop front.length = behind at final reads'
    cases final with
    | @cons _ last' _ _ same none =>
      cases none
      have eof' : last'.kind = .eof := same.1 ▸ eof
      have ended : ∀ token : Token, token.kind = .eof → Closed [token] :=
        fun token eof => ⟨[], token, rfl, eof, by simp⟩
      rw [reads.allItems (ended _ eof), reads'.allItems (ended _ eof'), allItems_eof eof,
        allItems_eof eof']
      simpa using values
  · have whole := stops.itemsTaken (Nat.lt_succ_self _)
    have whole' := stops'.itemsTaken (Nat.lt_succ_self _)
    rw [allItems, allItems, whole, whole']
    exact ⟨values, rfl⟩

/-- In front of one bar the same items are read, whatever follows, if all of one side is read. -/
theorem allItems_agree {front back back' : List Token} {bar bar' : Token}
    (closed : Closed (front ++ bar :: back)) (closed' : Closed (front ++ bar' :: back'))
    (barred : bar.isBar = true) (like : bar.Like bar')
    (whole : (allItems (front ++ bar :: back)).2 = true) : ∃ items others,
      AlikeItems items others ∧
      allItems (front ++ bar :: back) =
        (items ++ (allItems (bar :: back)).1, (allItems (bar :: back)).2) ∧
      allItems (front ++ bar' :: back') =
        (others ++ (allItems (bar' :: back')).1, (allItems (bar' :: back')).2) := by
  have inside : ∀ token ∈ (front ++ bar :: back).take front.length, token.kind ≠ .eof := by
    simpa using closed.inside_of_append (by simp)
  rcases itemsRead_agree (.of_append front like barred) inside with
    ⟨items, others, values, reads, reads'⟩ | ⟨items, others, values, stops, stops'⟩
  · rw [List.drop_left] at reads reads'
    exact ⟨items, others, values, reads.allItems (closed.of_append (by simp)),
      reads'.allItems (closed'.of_append (by simp))⟩
  · rw [allItems, stops.itemsTaken (Nat.lt_succ_self _)] at whole
    cases whole

end Scaffold.Go
