import Scaffold.Imports.Import
import Scaffold.Proofs.Go.File

/-! Files that differ in their imports and in nothing else. -/

namespace Scaffold.Go

/-- The path and the name that an import declares. -/
def ImportSpec.value (spec : ImportSpec) : Import :=
  ⟨spec.path, spec.name⟩

theorem ImportSpec.Like.value {first second : ImportSpec} (like : first.Like second) :
    first.value = second.value := by
  rw [ImportSpec.value, ImportSpec.value, like.1, like.2]

/-- Alike imports declare the same. -/
theorem map_value_of_like {first second : List ImportSpec}
    (like : List.Forall₂ ImportSpec.Like first second) :
    first.map ImportSpec.value = second.map ImportSpec.value := by
  induction like with
  | nil => rfl
  | cons one _ ih => rw [List.map_cons, List.map_cons, one.value, ih]

/-- The paths and names that some items import. -/
def valuesOf (items : List (Item × List Token)) : List Import :=
  (specsOf items).map ImportSpec.value

theorem valuesOf_append (first second : List (Item × List Token)) :
    valuesOf (first ++ second) = valuesOf first ++ valuesOf second := by
  rw [valuesOf, specsOf_append, List.map_append]
  rfl

theorem valuesOf_decl (decl : ImportDecl) (taken : List Token) (rest : List (Item × List Token)) :
    valuesOf ((.imports decl, taken) :: rest) =
      decl.specs.map ImportSpec.value ++ valuesOf rest := by
  have whole : (.imports decl, taken) :: rest = [(.imports decl, taken)] ++ rest := rfl
  rw [whole, valuesOf_append]
  simp [valuesOf, specsOf, declsOf]

/-- Items that import some more, and are the same otherwise. -/
structure Gains (first second : List (Item × List Token)) (new : List Import) : Prop where
  values : (valuesOf second).Perm (valuesOf first ++ new)
  others : otherTexts second = otherTexts first

theorem Gains.refl (items : List (Item × List Token)) : Gains items items [] :=
  ⟨by simp, rfl⟩

/-- What is gained in two steps is gained together. -/
theorem Gains.trans {first second third : List (Item × List Token)} {new more : List Import}
    (one : Gains first second new) (other : Gains second third more) :
    Gains first third (new ++ more) := by
  refine ⟨?_, other.others.trans one.others⟩
  rw [← List.append_assoc]
  exact other.values.trans (one.values.append_right more)

/-- Alike tokens have the same source text. -/
theorem sourceOf_like {xs ys : List Token} (like : List.Forall₂ Token.Like xs ys) :
    sourceOf xs = sourceOf ys := by
  cases like with
  | nil => rfl
  | cons first rest =>
    have fold : ∀ {xs ys : List Token} (start : String), List.Forall₂ Token.Like xs ys →
        xs.foldl (fun text token => text ++ token.gap ++ token.text) start =
          ys.foldl (fun text token => text ++ token.gap ++ token.text) start := by
      intro xs ys start like
      induction like generalizing start with
      | nil => rfl
      | cons one _ ih => rw [List.foldl_cons, List.foldl_cons, one.2.1, one.2.2, ih]
    rw [sourceOf, sourceOf, first.2.1, fold "" rest]

/-- Alike items import the same and have the same texts otherwise. -/
theorem AlikeItems.same {first second : List (Item × List Token)}
    (like : AlikeItems first second) :
    valuesOf first = valuesOf second ∧ otherTexts first = otherTexts second := by
  induction like with
  | nil => exact ⟨rfl, rfl⟩
  | @cons one other first second same _ ih =>
    obtain ⟨item, taken⟩ := one
    obtain ⟨item', taken'⟩ := other
    obtain ⟨like, tokens⟩ := same
    have text := sourceOf_like tokens
    cases like with
    | imports specs =>
      rw [valuesOf_decl, valuesOf_decl, map_value_of_like specs.1, ih.1]
      exact ⟨rfl, ih.2⟩
    | _ => exact ⟨ih.1, congrArg₂ List.cons text ih.2⟩

/-- Alike items have alike import declarations. -/
theorem AlikeItems.decls {first second : List (Item × List Token)}
    (like : AlikeItems first second) :
    List.Forall₂ ImportDecl.Like (declsOf first) (declsOf second) := by
  induction like with
  | nil => exact .nil
  | @cons one other first second same _ ih =>
    obtain ⟨item, taken⟩ := one
    obtain ⟨item', taken'⟩ := other
    cases same.1 with
    | imports specs => exact .cons specs ih
    | _ => exact ih

/-- A declaration begins with its keyword. -/
theorem DeclRead.key {read : List Token} {decl : ImportDecl} (decls : DeclRead read decl) :
    ∃ key rest, read = key :: rest ∧ key.isMark "import" = true ∧ decl.start = key.start := by
  cases decls with
  | group keyword _ _ _ => exact ⟨_, _, List.cons_append, keyword, rfl⟩
  | single keyword _ => exact ⟨_, _, rfl, keyword, rfl⟩

section Replacement

variable {front read read' after after' : List Token} {decl decl' : ImportDecl}

/-- A declaration that the tokens begin with is the first item, if an item may end behind it. -/
theorem allItems_of_declRead (closed : Closed after) (decls : DeclRead read decl)
    (ends : endsItem after = true) : allItems (read ++ after) =
      ((.imports decl, read) :: (allItems after).1, (allItems after).2) := by
  obtain ⟨key, rest, rfl, keyword, -⟩ := decls.key
  have plain := Token.plain_of_isMark keyword
  have one : ItemAt (key :: (rest ++ after)) (.imports decl) (key :: rest) after :=
    ⟨rfl, List.cons_ne_nil _ _, item_of_declRead decls after, ends⟩
  exact one.allItems plain.1 plain.2 closed

/-- An item may end behind a declaration that the tokens begin with, if all can be read. -/
theorem endsItem_of_declRead (decls : DeclRead read decl)
    (whole : (allItems (read ++ after)).2 = true) : endsItem after = true := by
  obtain ⟨key, rest, rfl, keyword, -⟩ := decls.key
  have run := item_of_declRead decls after
  have plain := Token.plain_of_isMark keyword
  have start : behindEnds (key :: rest ++ after) = key :: (rest ++ after) := by
    simp [behindEnds, plain.1]
  rw [allItems, itemsTaken_item start plain.2 (List.cons_append).symm run] at whole
  by_contra endless
  rw [if_neg endless] at whole
  cases whole

/-- Alike tokens end an item alike. -/
theorem endsItem_like {xs ys : List Token} (like : List.Forall₂ Token.Like xs ys) :
    endsItem xs = endsItem ys := by
  cases like with
  | nil => rfl
  | cons first _ => simp [endsItem, first.1]

/-- Tokens read whole are still read whole with another declaration in place of one. -/
theorem replaceDecl (closed : Closed (front ++ (read ++ after)))
    (closed' : Closed (front ++ (read' ++ after'))) (more : after ≠ [])
    (old : DeclRead read decl) (new : DeclRead read' decl')
    (keys : ∀ key key', read.head? = some key → read'.head? = some key' → key.Like key')
    (behind : List.Forall₂ Token.Like after after')
    (whole : (allItems (front ++ (read ++ after))).2 = true) :
    (allItems (front ++ (read' ++ after'))).2 = true ∧
      otherTexts (allItems (front ++ (read' ++ after'))).1 =
        otherTexts (allItems (front ++ (read ++ after))).1 ∧
      ∃ before later,
        valuesOf (allItems (front ++ (read ++ after))).1 =
          before ++ (decl.specs.map ImportSpec.value ++ later) ∧
        valuesOf (allItems (front ++ (read' ++ after'))).1 =
          before ++ (decl'.specs.map ImportSpec.value ++ later) := by
  have more' : after' ≠ [] := by
    cases behind with
    | nil => exact absurd rfl more
    | cons _ _ => exact List.cons_ne_nil _ _
  obtain ⟨key, rest, rfl, keyword, -⟩ := old.key
  obtain ⟨key', rest', rfl, keyword', -⟩ := new.key
  have inner : Closed (key :: rest ++ after) := closed.of_append (by simp)
  have inner' : Closed (key' :: rest' ++ after') := closed'.of_append (by simp)
  have last : Closed after := inner.of_append more
  have last' : Closed after' := inner'.of_append more'
  -- The same items stand in front, and alike ones behind.
  have barred : key.isBar = true := by simp [Token.isBar, keyword]
  obtain ⟨items, others, same, first, second⟩ : ∃ items others, AlikeItems items others ∧
      allItems (front ++ (key :: rest ++ after)) = (items ++ (allItems (key :: rest ++ after)).1,
        (allItems (key :: rest ++ after)).2) ∧
      allItems (front ++ (key' :: rest' ++ after')) =
        (others ++ (allItems (key' :: rest' ++ after')).1,
          (allItems (key' :: rest' ++ after')).2) :=
    allItems_agree closed closed' barred (keys key key' rfl rfl) whole
  rw [first] at whole
  have ends := endsItem_of_declRead old whole
  have one := allItems_of_declRead last old ends
  have other := allItems_of_declRead last' new (endsItem_like behind ▸ ends)
  rw [one] at whole
  obtain ⟨alike, complete⟩ := allItems_alike behind last
  have values := same.same
  have valuesBehind := alike.same
  refine ⟨?_, ?_, valuesOf items, valuesOf (allItems after).1, ?_, ?_⟩
  · rw [second, other]
    exact complete ▸ whole
  · rw [first, second, one, other, otherTexts_append, otherTexts_append, values.2]
    exact congrArg _ valuesBehind.2.symm
  · rw [first, one, valuesOf_append, valuesOf_decl]
  · rw [second, other, valuesOf_append, valuesOf_decl, values.1, valuesBehind.1]

end Replacement

end Scaffold.Go
