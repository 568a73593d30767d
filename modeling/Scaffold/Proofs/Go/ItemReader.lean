import Scaffold.Proofs.Go.ImportReader
import Scaffold.Proofs.Go.Phrase

/-! One item of a file: alike tokens make up alike items. -/

namespace Scaffold.Go

open Reading Reader

/-- Imports of one path under one name. -/
def ImportSpec.Like (first second : ImportSpec) : Prop :=
  first.name = second.name ∧ first.path = second.path

/-- Import declarations of the same imports, both with parentheses or both without. -/
def ImportDecl.Like (first second : ImportDecl) : Prop :=
  List.Forall₂ ImportSpec.Like first.specs second.specs ∧
    first.close.isSome = second.close.isSome

/-- Items of one kind that declare the same package or the same imports, if either. -/
inductive Item.Like : Item → Item → Prop
  | package {first second : PackageClause} (named : first.name = second.name) :
      Item.Like (.package first) (.package second)
  | imports {first second : ImportDecl} (like : first.Like second) :
      Item.Like (.imports first) (.imports second)
  | types {first second : List TypeSpec} : Item.Like (.types first) (.types second)
  | func {first second : FuncDecl} : Item.Like (.func first) (.func second)
  | other : Item.Like .other .other

namespace Alike

variable {count depth : Nat}

/-- A keyword that is not the bar itself. -/
theorem markBefore {text : String} (keyword : text = "import" ∨ text = "package") :
    Alike depth depth 1 (count + 1) Token.Near (Reader.mark text) (Reader.mark text) := by
  intro xs ys agree
  cases agree with
  | @step _ between _ x y xs ys near moves rest =>
    have same := near.isMark text
    by_cases is : x.isMark text = true
    · have barred : x.isBar = true := by
        rcases keyword with rfl | rfl <;> simp [Token.isBar, is]
      obtain ⟨opened, closed⟩ := Token.plain_of_isBar barred
      refine .inr ⟨x, y, 1, one_cons_of_true is _, one_cons_of_true (same ▸ is) _, near, by omega,
        by omega, ?_⟩
      rw [List.take_succ_cons, List.take_zero, depthBehind, Token.depth_of_plain opened closed]
      rfl
    · simp only [Bool.not_eq_true] at is
      exact .inl ⟨one_cons_of_false is _, one_cons_of_false (same ▸ is) _⟩

theorem importSpec : Alike depth depth 1 count ImportSpec.Like importSpec importSpec := by
  refine .before .next fun less _ _ _ _ => ?_
  refine .before (.maybe (.either .word (.mark (by decide)))) fun few _ name name' named => ?_
  refine .taking .literal fun fewer _ path path' like => .pure ⟨?_, ?_⟩
  · cases named with
    | none => rfl
    | some like => exact congrArg some like.2
  · rw [like.2]

theorem importGroup : Alike depth depth 1 count (fun first second =>
    List.Forall₂ ImportSpec.Like first.1 second.1) Reader.importGroup Reader.importGroup := by
  refine .taking (.opening (by decide)) fun less _ _ _ _ => ?_
  refine .andThen (.maybe .importSpec) fun few _ first first' like => ?_
  cases like with
  | none =>
    have nothing : Alike (depth + 1) (depth + 1) 0 few (List.Forall₂ ImportSpec.Like)
        (Pure.pure [] : Reader (List ImportSpec)) (Pure.pure [] : Reader (List ImportSpec)) :=
      .pure .nil
    refine .andThen nothing fun _ _ _ _ none => ?_
    exact .andThen (.closing (by decide)) fun _ _ _ _ _ => .pure none
  | some same =>
    refine .andThen (.many (V := ImportSpec.Like) fun fewer _ => ?_) fun fewer _ _ _ others => ?_
    · exact .seqRight .done (fun least _ => .importSpec) (Nat.le_add_right 1 1)
    · refine .andThen (.maybe .done) fun _ _ _ _ _ => ?_
      exact .andThen (.closing (by decide)) fun _ _ _ _ _ => .pure (.cons same others)

theorem importDecl : Alike depth depth 1 (count + 1) ImportDecl.Like importDecl importDecl := by
  refine .taking (.markBefore (.inl rfl)) fun less _ _ _ _ => .either ?_ ?_
  · exact .andThen .importGroup fun _ _ _ _ specs => .pure ⟨specs, rfl⟩
  · exact .andThen .importSpec fun _ _ _ _ like => .pure ⟨.cons like .nil, rfl⟩

theorem packageClause : Alike depth depth 1 (count + 1) (fun first second => first.name = second.name)
    packageClause packageClause := by
  refine .taking (.markBefore (.inr rfl)) fun less _ _ _ _ => ?_
  exact .andThen .word fun _ _ _ _ like => .pure like.2

theorem typeSpec : Alike depth depth 1 count Whatever typeSpec typeSpec := by
  refine .taking .word fun less _ _ _ _ => .either ?_ (.either ?_ ?_)
  · refine .andThen (.mark (by decide)) fun few _ _ _ _ => ?_
    exact .andThen type_alike fun _ _ _ _ _ => .pure trivial
  · exact .andThen type_alike fun _ _ _ _ _ => .pure trivial
  · refine .andThen (typeParams_alike fun _ _ => type_alike) fun few _ _ _ _ => ?_
    refine .andThen (.maybe (.mark (by decide))) fun fewer _ _ _ _ => ?_
    exact .andThen type_alike fun _ _ _ _ _ => .pure trivial

theorem typeDecl : Alike depth depth 1 count Whatever typeDecl typeDecl := by
  refine .taking (.mark (by decide)) fun less _ _ _ _ => .either ?_ ?_
  · refine .andThen (.opening (by decide)) fun few _ _ _ _ => ?_
    refine .andThen (.many (V := Whatever) fun fewer _ => ?_) fun fewer _ _ _ _ => ?_
    · exact .seqLeft .typeSpec (fun _ _ => .done) (Nat.le_refl _)
    · exact .andThen (.closing (by decide)) fun _ _ _ _ _ => .pure trivial
  · exact .andThen .typeSpec fun _ _ _ _ _ => .pure trivial

theorem funcDecl : Alike depth depth 1 count Whatever funcDecl funcDecl := by
  have types : AlikeBelow count type type := fun _ _ => type_alike
  refine .taking (.withTaken (V := Whatever) ?_) fun _ _ _ _ _ => .pure trivial
  refine .seqLeft (.either ?_ ?_) (fun _ _ => .maybe (phrase_alike .block)) (Nat.le_refl _)
  · refine .taking (.mark (by decide)) fun less _ _ _ _ => ?_
    refine .andThen .word fun few _ _ _ _ => ?_
    refine .andThen (.maybe (typeParams_alike fun _ _ => type_alike)) fun fewer _ _ _ _ => ?_
    exact .andThen (types.signature (by omega)) fun _ _ _ _ _ => .pure trivial
  · refine .taking (.mark (by decide)) fun less _ _ _ _ => ?_
    refine .andThen (types.paramList (by omega)) fun few _ _ _ _ => ?_
    refine .andThen .word fun fewer _ _ _ _ => ?_
    exact .andThen (types.signature (by omega)) fun _ _ _ _ _ => .pure trivial

/-- An item in front of the bar is read alike. -/
theorem item : Alike depth depth 1 (count + 1) Item.Like item item := by
  refine .either (.map .packageClause fun _ _ => .package) ?_
  refine .either (.map .importDecl fun _ _ => .imports) ?_
  refine .either (.map .typeDecl fun _ _ _ => .types) ?_
  refine .either (.map .funcDecl fun _ _ _ => .func) ?_
  exact .map (phrase_alike .statement) fun _ _ _ => .other

/-- Nothing is read where a bar stands if what is read needs a token in front of it. -/
theorem none_of_bar {α β : Type} {V : α → β → Prop} {r : Reader α} {s : Reader β}
    (alike : Alike 0 0 1 0 V r s) {bar : Token} (barred : bar.isBar = true) (rest : List Token) :
    r (bar :: rest) = none := by
  have agree : AgreeWithin 0 0 (bar :: rest) [bar] := .stop (.refl bar) (.inl barred)
  rcases alike _ _ agree with ⟨failed, -⟩ | ⟨_, _, taken, -, -, -, low, high, -⟩
  · exact failed
  · omega

end Alike

/-- The readers of items are tried one after the other. -/
private theorem item_run (xs : List Token) :
    item xs = ((packageClause xs).map fun pair => (.package pair.1, pair.2)).or
      (((importDecl xs).map fun pair => (.imports pair.1, pair.2)).or
      (((typeDecl xs).map fun pair => (.types pair.1, pair.2)).or
      (((funcDecl xs).map fun pair => (.func pair.1, pair.2)).or
      ((phrase (.rule .statement) xs).map fun pair => (.other, pair.2))))) := by
  simp only [item, either_run, map_run]

/-- What a package clause is read from. -/
theorem packageClause_eq_some {xs rest : List Token} {clause : PackageClause} :
    packageClause xs = some (clause, rest) ↔ ∃ key name, xs = key :: name :: rest ∧
      key.isMark "package" = true ∧ name.kind = .word ∧
      clause = ⟨name.text, key.start, name.stop, key.row⟩ := by
  have run : packageClause xs = (mark "package" xs).bind fun key => (word key.2).bind fun name =>
    some (⟨name.1.text, key.1.start, name.1.stop, key.1.row⟩, name.2) := rfl
  rw [run]
  constructor
  · intro success
    obtain ⟨⟨key, behind⟩, taken, inner⟩ := Option.bind_eq_some_iff.mp success
    obtain ⟨rfl, keyword⟩ := one_eq_some.mp taken
    obtain ⟨⟨name, after⟩, named, same⟩ := Option.bind_eq_some_iff.mp inner
    obtain ⟨rfl, isWord⟩ := one_eq_some.mp named
    cases same
    exact ⟨key, name, rfl, keyword, by simpa using isWord, rfl⟩
  · rintro ⟨key, name, rfl, keyword, isWord, rfl⟩
    rw [mark, one_cons_of_true keyword, Option.bind_some, word, one_cons_of_true (by simp [isWord])]
    rfl

/-- A keyword that begins an import declaration begins nothing else. -/
theorem item_import {key : Token} {rest : List Token} (keyword : key.isMark "import" = true) :
    item (key :: rest) = (importDecl (key :: rest)).map fun pair => (.imports pair.1, pair.2) := by
  have barred : key.isBar = true := by simp [Token.isBar, keyword]
  have noPackage : packageClause (key :: rest) = none := by
    have run : packageClause (key :: rest) =
      (mark "package" (key :: rest)).bind fun key => _ := rfl
    rw [run, mark, one_cons_of_false (Token.isMark_of_isMark keyword (by decide)), Option.bind_none]
  rw [item_run, noPackage, Alike.typeDecl.none_of_bar barred, Alike.funcDecl.none_of_bar barred,
    (phrase_alike .statement).none_of_bar barred]
  simp

/-- An import declaration is read as an item. -/
theorem item_of_declRead {read : List Token} {decl : ImportDecl} (decls : DeclRead read decl)
    (rest : List Token) : item (read ++ rest) = some (.imports decl, rest) := by
  have run : importDecl (read ++ rest) = some (decl, rest) :=
    importDecl_eq_some.mpr ⟨read, rfl, decls⟩
  cases decls with
  | group keyword opens inner closes =>
    rw [List.append_assoc, List.cons_append] at run ⊢
    rw [item_import keyword, run]
    rfl
  | single keyword one =>
    rw [List.cons_append] at run ⊢
    rw [item_import keyword, run]
    rfl

/-- What an item that is an import declaration is read from. -/
theorem declRead_of_item {xs rest : List Token} {decl : ImportDecl}
    (run : item xs = some (.imports decl, rest)) : ∃ read, xs = read ++ rest ∧ DeclRead read decl := by
  refine importDecl_eq_some.mp ?_
  -- Each reader makes another kind of item.
  simp only [item_run, Option.or_eq_some_iff, Option.map_eq_some_iff, Prod.mk.injEq, reduceCtorEq,
    false_and, and_false, exists_false, or_false, false_or, Item.imports.injEq] at run
  obtain ⟨-, pair, read, rfl, rfl⟩ := run
  exact read

/-- What an item that is a function is read from. -/
theorem funcDecl_of_item {xs rest : List Token} {decl : FuncDecl}
    (run : item xs = some (.func decl, rest)) : funcDecl xs = some (decl, rest) := by
  simp only [item_run, Option.or_eq_some_iff, Option.map_eq_some_iff, Prod.mk.injEq, reduceCtorEq,
    false_and, and_false, exists_false, or_false, false_or, Item.func.injEq] at run
  obtain ⟨-, -, -, pair, read, rfl, rfl⟩ := run
  exact read

/-- A package clause is read as an item. -/
theorem item_package {key name : Token} (keyword : key.isMark "package" = true)
    (named : name.kind = .word) (rest : List Token) :
    item (key :: name :: rest) =
      some (.package ⟨name.text, key.start, name.stop, key.row⟩, rest) := by
  have run : packageClause (key :: name :: rest) = some (_, rest) :=
    packageClause_eq_some.mpr ⟨key, name, rfl, keyword, named, rfl⟩
  rw [item_run, run]
  rfl

/-- What an item that is a package clause is read from. -/
theorem package_of_item {xs rest : List Token} {clause : PackageClause}
    (run : item xs = some (.package clause, rest)) : ∃ key name, xs = key :: name :: rest ∧
      key.isMark "package" = true ∧ name.kind = .word ∧
      clause = ⟨name.text, key.start, name.stop, key.row⟩ := by
  refine packageClause_eq_some.mp ?_
  simp only [item_run, Option.or_eq_some_iff, Option.map_eq_some_iff, Prod.mk.injEq, reduceCtorEq,
    false_and, and_false, exists_false, or_false, Item.package.injEq] at run
  obtain ⟨pair, read, rfl, rfl⟩ := run
  exact read

end Scaffold.Go
