import Scaffold.Go.DeclarationReader
import Scaffold.Proofs.Go.Reader

/-! Import declarations are read exactly from the tokens that make one up. -/

namespace Scaffold.Go

open Reading Reader

/-- The tokens of one import: a path, perhaps with a name or a dot before it. -/
inductive SpecRead : List Token → ImportSpec → Prop
  | plain {path : Token} (text : path.kind = .text) :
      SpecRead [path] ⟨none, unquote path.text, path.start, path.stop⟩
  | named {name path : Token} (bound : name.kind = .word ∨ name.isMark "." = true)
      (text : path.kind = .text) :
      SpecRead [name, path] ⟨some name.text, unquote path.text, name.start, path.stop⟩

/-- The tokens of imports of which each is ended. -/
inductive EndedSpecs : List Token → List ImportSpec → Prop
  | nil : EndedSpecs [] []
  | cons {read rest : List Token} {stop : Token} {spec : ImportSpec} {specs : List ImportSpec}
      (first : SpecRead read spec) (ended : stop.kind = .terminator)
      (more : EndedSpecs rest specs) : EndedSpecs (read ++ stop :: rest) (spec :: specs)

/-- The tokens between the parentheses of a declaration: the last import need not be ended. -/
inductive GroupBody : List Token → List ImportSpec → Prop
  | ended {tokens : List Token} {specs : List ImportSpec} (all : EndedSpecs tokens specs) :
      GroupBody tokens specs
  | unended {tokens read : List Token} {spec : ImportSpec} {specs : List ImportSpec}
      (front : EndedSpecs tokens specs) (last : SpecRead read spec) :
      GroupBody (tokens ++ read) (specs ++ [spec])

/-- The tokens of an import declaration. -/
inductive DeclRead : List Token → ImportDecl → Prop
  | group {key opened closed : Token} {body : List Token} {specs : List ImportSpec}
      (keyword : key.isMark "import" = true) (opens : opened.isMark "(" = true)
      (inner : GroupBody body specs) (closes : closed.isMark ")" = true) :
      DeclRead (key :: opened :: body ++ [closed])
        ⟨key.start, closed.start + 1, specs, some closed.start⟩
  | single {key : Token} {read : List Token} {spec : ImportSpec}
      (keyword : key.isMark "import" = true) (one : SpecRead read spec) :
      DeclRead (key :: read) ⟨key.start, spec.stop, [spec], none⟩

/-- What may stand before the path of an import. -/
def Token.isBinding (token : Token) : Bool :=
  token.kind == .word || token.isMark "."

/-- A reader of what may stand before a path goes by the first token. -/
theorem binding_run (first : Token) (rest : List Token) :
    maybe (either word (mark ".")) (first :: rest) =
      if first.isBinding then some (some first, rest) else some (none, first :: rest) := by
  rw [maybe_run, either_run]
  by_cases named : (first.kind == .word) = true
  · rw [if_pos (by simp [Token.isBinding, named]), word, one_cons_of_true named, Option.some_or]
  · simp only [Bool.not_eq_true] at named
    rw [word, one_cons_of_false named, Option.none_or, mark]
    by_cases dotted : first.isMark "." = true
    · rw [one_cons_of_true dotted, if_pos (by simp [Token.isBinding, dotted])]
    · simp only [Bool.not_eq_true] at dotted
      rw [one_cons_of_false dotted, if_neg (by simp [Token.isBinding, named, dotted])]

theorem importSpec_cons (first : Token) (rest : List Token) :
    importSpec (first :: rest) =
      if first.isBinding then (literal rest).map fun pair =>
        (⟨some first.text, unquote pair.1.text, first.start, pair.1.stop⟩, pair.2)
      else (literal (first :: rest)).map fun pair =>
        (⟨none, unquote pair.1.text, first.start, pair.1.stop⟩, pair.2) := by
  rw [importSpec, bind_run, next_cons, Option.bind_some, bind_run, binding_run]
  split <;> rw [Option.bind_some, bind_run]
  · cases literal rest <;> rfl
  · cases literal (first :: rest) <;> rfl

/-- The reader of one import takes the tokens of one import and nothing else. -/
theorem importSpec_eq_some {xs rest : List Token} {spec : ImportSpec} :
    importSpec xs = some (spec, rest) ↔ ∃ read, xs = read ++ rest ∧ SpecRead read spec := by
  constructor
  · intro success
    cases xs with
    | nil => cases success
    | cons first xs =>
      rw [importSpec_cons] at success
      split at success <;> rename_i binds <;>
        obtain ⟨⟨path, after⟩, taken, same⟩ := Option.map_eq_some_iff.mp success <;>
        obtain ⟨split, text⟩ := one_eq_some.mp taken <;> cases same
      · subst split
        refine ⟨[first, path], rfl, .named ?_ (by simpa using text)⟩
        simpa [Token.isBinding] using binds
      · cases split
        exact ⟨[first], rfl, .plain (by simpa using text)⟩
  · rintro ⟨read, rfl, spec⟩
    cases spec with
    | @plain path text =>
      have unbound : path.isBinding = false := by simp [Token.isBinding, Token.isMark, text]
      rw [List.cons_append, importSpec_cons, if_neg (by simp [unbound]), literal,
        one_cons_of_true (by simp [text])]
      rfl
    | @named name path bound text =>
      have binds : name.isBinding = true := by simpa [Token.isBinding] using bound
      rw [List.cons_append, importSpec_cons, if_pos binds, List.cons_append, literal,
        one_cons_of_true (by simp [text])]
      rfl

/-- The tokens of imports behind the first one, each behind the end of the import before it. -/
private inductive FurtherSpecs : List Token → List ImportSpec → Prop
  | nil : FurtherSpecs [] []
  | cons {read rest : List Token} {stop : Token} {spec : ImportSpec} {specs : List ImportSpec}
      (ended : stop.kind = .terminator) (next : SpecRead read spec)
      (more : FurtherSpecs rest specs) : FurtherSpecs (stop :: read ++ rest) (spec :: specs)

namespace FurtherSpecs

private theorem append {xs ys : List Token} {specs others : List ImportSpec}
    (front : FurtherSpecs xs specs) (back : FurtherSpecs ys others) :
    FurtherSpecs (xs ++ ys) (specs ++ others) := by
  induction front with
  | nil => exact back
  | @cons read rest stop spec specs ended next _ ih =>
    rw [List.append_assoc]
    exact .cons ended next ih

end FurtherSpecs

namespace EndedSpecs

theorem append {xs ys : List Token} {specs others : List ImportSpec}
    (front : EndedSpecs xs specs) (back : EndedSpecs ys others) :
    EndedSpecs (xs ++ ys) (specs ++ others) := by
  induction front with
  | nil => exact back
  | cons first ended _ ih =>
    rw [List.append_assoc]
    exact .cons first ended ih

theorem single {read : List Token} {stop : Token} {spec : ImportSpec} (first : SpecRead read spec)
    (ended : stop.kind = .terminator) : EndedSpecs (read ++ [stop]) [spec] :=
  .cons first ended .nil

/-- Imports that are all ended, seen as a first one and further ones. -/
private theorem toFurther {tokens : List Token} {spec : ImportSpec} {specs : List ImportSpec}
    (all : EndedSpecs tokens (spec :: specs)) : ∃ read more stop, tokens = read ++ more ++ [stop] ∧
      SpecRead read spec ∧ FurtherSpecs more specs ∧ stop.kind = .terminator := by
  induction specs generalizing tokens spec with
  | nil =>
    cases all with
    | @cons read rest stop _ _ first ended more =>
      cases more
      exact ⟨read, [], stop, by simp, first, .nil, ended⟩
  | cons second specs ih =>
    cases all with
    | @cons read rest stop _ _ first ended more =>
      obtain ⟨next, further, last, rfl, reads, others, done⟩ := ih more
      exact ⟨read, stop :: next ++ further, last, by simp, first, .cons ended reads others, done⟩

end EndedSpecs

/-- A first import and further ones, seen as ended imports and a last one. -/
private theorem FurtherSpecs.toEnded {more read : List Token} {spec : ImportSpec}
    {specs : List ImportSpec} (further : FurtherSpecs more specs) (first : SpecRead read spec) :
    ∃ tokens last front final, read ++ more = tokens ++ last ∧ spec :: specs = front ++ [final] ∧
      EndedSpecs tokens front ∧ SpecRead last final := by
  induction further generalizing read spec with
  | nil => exact ⟨[], read, [], spec, by simp, rfl, .nil, first⟩
  | @cons next rest stop second specs ended reads _ ih =>
    obtain ⟨tokens, last, front, final, split, values, all, one⟩ := ih reads
    refine ⟨read ++ stop :: tokens, last, spec :: front, final, ?_, ?_, .cons first ended all, one⟩
    · simp [split]
    · rw [values, List.cons_append]

/-- A body with imports, seen as a first one, further ones and perhaps the end of the last. -/
private theorem GroupBody.toFurther {body : List Token} {spec : ImportSpec}
    {specs : List ImportSpec} (inner : GroupBody body (spec :: specs)) :
    ∃ read more tail, body = read ++ more ++ tail ∧ SpecRead read spec ∧
      FurtherSpecs more specs ∧ (tail = [] ∨ ∃ stop : Token, tail = [stop] ∧ stop.kind = .terminator) := by
  generalize all : spec :: specs = values at inner
  cases inner with
  | ended ended =>
    subst all
    obtain ⟨read, more, stop, rfl, first, further, done⟩ := ended.toFurther
    exact ⟨read, more, [stop], rfl, first, further, .inr ⟨stop, rfl, done⟩⟩
  | @unended tokens last final values front one =>
    cases values with
    | nil =>
      cases front
      cases all
      exact ⟨last, [], [], by simp, one, .nil, .inl rfl⟩
    | cons first values =>
      obtain ⟨read, more, stop, rfl, reads, further, done⟩ := front.toFurther
      cases all
      refine ⟨read, more ++ (stop :: last), [], by simp, reads, ?_, .inl rfl⟩
      simpa using further.append (.cons done one .nil)

/-- Behind an end the next import is read. -/
private theorem further_run {xs rest : List Token} {spec : ImportSpec} :
    (done *> importSpec) xs = some (spec, rest) ↔ ∃ stop read, xs = stop :: read ++ rest ∧
      stop.kind = .terminator ∧ SpecRead read spec := by
  have run : (done *> importSpec) xs = (done xs).bind fun pair => importSpec pair.2 := rfl
  rw [run]
  constructor
  · intro success
    obtain ⟨⟨stop, after⟩, taken, more⟩ := Option.bind_eq_some_iff.mp success
    obtain ⟨rfl, ended⟩ := one_eq_some.mp taken
    obtain ⟨read, split, reads⟩ := importSpec_eq_some.mp more
    exact ⟨stop, read, by rw [List.cons_append, ← split], by simpa using ended, reads⟩
  · rintro ⟨stop, read, rfl, ended, reads⟩
    rw [List.cons_append, done, one_cons_of_true (by simp [ended]), Option.bind_some]
    exact importSpec_eq_some.mpr ⟨read, rfl, reads⟩

/-- Imports behind the first one are read as far as there are any. -/
private theorem manyFurther_eq_some {limit : Nat} {xs rest : List Token}
    {specs : List ImportSpec}
    (success : manyWithin (done *> importSpec) limit xs = some (specs, rest)) :
    ∃ more, xs = more ++ rest ∧ FurtherSpecs more specs := by
  induction limit generalizing xs specs with
  | zero =>
    cases success
    exact ⟨[], rfl, .nil⟩
  | succ limit ih =>
    rw [manyWithin_succ_run] at success
    split at success
    · cases success
      exact ⟨[], rfl, .nil⟩
    · rename_i spec after taken
      obtain ⟨stop, read, rfl, ended, reads⟩ := further_run.mp taken
      obtain ⟨⟨others, behind⟩, repeated, same⟩ := Option.map_eq_some_iff.mp success
      cases same
      obtain ⟨more, rfl, further⟩ := ih repeated
      exact ⟨stop :: read ++ more, by simp, .cons ended reads further⟩

/-- Imports behind the first one are all read if none follows. -/
private theorem manyFurther_run {limit : Nat} {more rest : List Token} {specs : List ImportSpec}
    (further : FurtherSpecs more specs) (last : (done *> importSpec) rest = none)
    (enough : more.length ≤ limit) :
    manyWithin (done *> importSpec) limit (more ++ rest) = some (specs, rest) := by
  -- Each round reads an import, which has at least two tokens with the end before it.
  induction further generalizing limit with
  | nil =>
    cases limit with
    | zero => rfl
    | succ limit => rw [manyWithin_succ_run, List.nil_append, last]
  | @cons read others stop spec specs ended reads _ ih =>
    cases limit with
    | zero => simp at enough
    | succ limit =>
      have first : (done *> importSpec) (stop :: read ++ others ++ rest) =
          some (spec, others ++ rest) :=
        further_run.mpr ⟨stop, read, by simp, ended, reads⟩
      rw [manyWithin_succ_run, first]
      simp only [List.cons_append, List.length_cons, List.length_append] at enough
      have others : manyWithin (done *> importSpec) limit (others ++ rest) = some (specs, rest) :=
        ih (by omega)
      simp only [others, Option.map_some]

/-- No import begins with a closing parenthesis. -/
private theorem importSpec_closing {closed : Token} (closes : closed.isMark ")" = true)
    (rest : List Token) : importSpec (closed :: rest) = none := by
  have noDot : closed.isMark "." = false := Token.isMark_of_isMark closes (by decide)
  have unbound : closed.isBinding = false := by
    rcases Token.kind_of_isMark closes with kind | kind <;>
      simp [Token.isBinding, kind, noDot]
  have notLiteral : (closed.kind == .text) = false := by
    rcases Token.kind_of_isMark closes with kind | kind <;> simp [kind]
  rw [importSpec_cons, if_neg (by simp [unbound]), literal, one_cons_of_false notLiteral,
    Option.map_none]

private theorem done_closing {closed : Token} (closes : closed.isMark ")" = true)
    (rest : List Token) : done (closed :: rest) = none := by
  refine one_cons_of_false ?_ rest
  rcases Token.kind_of_isMark closes with kind | kind <;> simp [kind]

private theorem importGroup_run (xs : List Token) :
    Reader.importGroup xs = (mark "(" xs).bind fun opened => match importSpec opened.2 with
      | none => (mark ")" opened.2).map fun closed => (([], closed.1.start), closed.2)
      | some (spec, after) => (many (done *> importSpec) after).bind fun more =>
        (maybe done more.2).bind fun ended => (mark ")" ended.2).map fun closed =>
          ((spec :: more.1, closed.1.start), closed.2) := by
  rw [Reader.importGroup, bind_run]
  congr 1
  funext opened
  rw [bind_run, maybe_run]
  cases importSpec opened.2 with
  | none =>
    simp only [Option.bind_some, Option.isSome_none, Bool.false_eq_true, if_false, pure_bind]
    rw [bind_run, Option.map_eq_bind]
    rfl
  | some pair =>
    simp only [Option.bind_some, Option.isSome_some, if_true]
    rw [bind_run]
    congr 1
    funext more
    rw [bind_run]
    congr 1
    funext ended
    rw [bind_run, Option.map_eq_bind]
    rfl

/-- What a group is read from: its parentheses and a body between them. -/
private theorem importGroup_eq_some_only {xs rest : List Token} {specs : List ImportSpec}
    {close : Nat} (success : Reader.importGroup xs = some ((specs, close), rest)) :
    ∃ opened body closed, xs = opened :: body ++ closed :: rest ∧ opened.isMark "(" = true ∧
      GroupBody body specs ∧ closed.isMark ")" = true ∧ closed.start = close := by
  rw [importGroup_run] at success
  obtain ⟨⟨opened, inner⟩, taken, within⟩ := Option.bind_eq_some_iff.mp success
  obtain ⟨rfl, opens⟩ := one_eq_some.mp taken
  split at within
  · obtain ⟨⟨closed, after⟩, last, same⟩ := Option.map_eq_some_iff.mp within
    obtain ⟨rfl, closes⟩ := one_eq_some.mp last
    cases same
    exact ⟨opened, [], closed, rfl, opens, .ended .nil, closes, rfl⟩
  · rename_i spec after read
    obtain ⟨tokens, rfl, reads⟩ := importSpec_eq_some.mp read
    obtain ⟨⟨others, behind⟩, repeated, finish⟩ := Option.bind_eq_some_iff.mp within
    obtain ⟨more, rfl, further⟩ := manyFurther_eq_some repeated
    obtain ⟨⟨stop, left⟩, ended, closing⟩ := Option.bind_eq_some_iff.mp finish
    obtain ⟨⟨closed, after⟩, last, same⟩ := Option.map_eq_some_iff.mp closing
    obtain ⟨rfl, closes⟩ := one_eq_some.mp last
    cases same
    obtain ⟨front, final, firsts, one, split, values, all, reads⟩ := further.toEnded reads
    rw [maybe_run] at ended
    split at ended
    · -- The end behind the last import makes it one of the ended ones.
      rename_i stop left taken
      obtain ⟨rfl, done⟩ := one_eq_some.mp taken
      cases ended
      refine ⟨opened, front ++ (final ++ [stop]), closed, ?_, opens, ?_, closes, rfl⟩
      · rw [← List.append_assoc front, ← split]
        simp
      · rw [values]
        exact .ended (all.append (.single reads (by simpa using done)))
    · cases ended
      refine ⟨opened, front ++ final, closed, ?_, opens, ?_, closes, rfl⟩
      · rw [← split]
        simp
      · rw [values]
        exact .unended all reads

/-- A body without imports has no tokens. -/
private theorem GroupBody.eq_nil {body : List Token} (inner : GroupBody body []) : body = [] := by
  generalize none : ([] : List ImportSpec) = specs at inner
  cases inner with
  | ended all =>
    subst none
    cases all
    rfl
  | unended => simp at none

/-- A body between parentheses is read whole. -/
private theorem importGroup_body {opened closed : Token} {body rest : List Token}
    {specs : List ImportSpec} (opens : opened.isMark "(" = true) (inner : GroupBody body specs)
    (closes : closed.isMark ")" = true) :
    Reader.importGroup (opened :: body ++ closed :: rest) = some ((specs, closed.start), rest) := by
  have last : mark ")" (closed :: rest) = some (closed, rest) := one_cons_of_true closes rest
  have noSpec := importSpec_closing closes rest
  have notDone := done_closing closes rest
  rw [importGroup_run, List.cons_append, mark, one_cons_of_true opens, Option.bind_some]
  cases specs with
  | nil =>
    rw [inner.eq_nil, List.nil_append, noSpec, last, Option.map_some]
  | cons spec specs =>
    obtain ⟨read, more, tail, rfl, reads, further, ending⟩ := inner.toFurther
    have first : importSpec (read ++ more ++ tail ++ closed :: rest) =
        some (spec, more ++ (tail ++ closed :: rest)) :=
      importSpec_eq_some.mpr ⟨read, by simp, reads⟩
    have noFurther : (done *> importSpec) (tail ++ closed :: rest) = none := by
      have run : (done *> importSpec) (tail ++ closed :: rest) =
        (done (tail ++ closed :: rest)).bind fun pair => importSpec pair.2 := rfl
      rw [run]
      rcases ending with rfl | ⟨stop, rfl, ended⟩
      · rw [List.nil_append, notDone, Option.bind_none]
      · rw [List.cons_append, done, one_cons_of_true (by simp [ended]), Option.bind_some]
        exact noSpec
    have finish : maybe done (tail ++ closed :: rest) = some (tail.head?, closed :: rest) := by
      rw [maybe_run]
      rcases ending with rfl | ⟨stop, rfl, ended⟩
      · rw [List.nil_append, notDone, List.head?_nil]
      · rw [List.cons_append, done, one_cons_of_true (by simp [ended])]
        rfl
    have others : many (done *> importSpec) (more ++ (tail ++ closed :: rest)) =
        some (specs, tail ++ closed :: rest) := by
      rw [many_run]
      exact manyFurther_run further noFurther (by simp)
    simp only [first, others, finish, last, Option.bind_some, Option.map_some]

/-- No group begins like an import. -/
private theorem importGroup_eq_none {read rest : List Token} {spec : ImportSpec}
    (one : SpecRead read spec) : Reader.importGroup (read ++ rest) = none := by
  have unopened : ∀ (first : Token) (others : List Token), first.isMark "(" = false →
      Reader.importGroup (first :: others) = none := by
    intro first others fails
    rw [importGroup_run, mark, one_cons_of_false fails, Option.bind_none]
  cases one with
  | plain text =>
    exact unopened _ _ (Token.isMark_eq_false (by simp [text]) (by simp [text]) _)
  | named bound text =>
    refine unopened _ _ ?_
    rcases bound with word | dot
    · exact Token.isMark_eq_false (by simp [word]) (by simp [word]) _
    · exact Token.isMark_of_isMark dot (by decide)

private theorem importDecl_run (xs : List Token) :
    importDecl xs = (mark "import" xs).bind fun key =>
      ((Reader.importGroup key.2).map fun group =>
        ((⟨key.1.start, group.1.2 + 1, group.1.1, some group.1.2⟩ : ImportDecl), group.2)).or
      ((importSpec key.2).map fun spec =>
        ((⟨key.1.start, spec.1.stop, [spec.1], none⟩ : ImportDecl), spec.2)) := by
  rw [importDecl, bind_run]
  congr 1
  funext key
  rw [either_run, bind_run, bind_run]
  cases Reader.importGroup key.2 <;> cases importSpec key.2 <;> rfl

/-- The reader of a declaration takes the tokens of one declaration and nothing else. -/
theorem importDecl_eq_some {xs rest : List Token} {decl : ImportDecl} :
    importDecl xs = some (decl, rest) ↔ ∃ read, xs = read ++ rest ∧ DeclRead read decl := by
  rw [importDecl_run]
  constructor
  · intro success
    obtain ⟨⟨key, inner⟩, taken, behind⟩ := Option.bind_eq_some_iff.mp success
    obtain ⟨rfl, keyword⟩ := one_eq_some.mp taken
    rcases Option.or_eq_some_iff.mp behind with grouped | ⟨-, alone⟩
    · obtain ⟨⟨⟨specs, close⟩, after⟩, group, same⟩ := Option.map_eq_some_iff.mp grouped
      cases same
      obtain ⟨opened, body, closed, rfl, opens, body, closes, rfl⟩ :=
        importGroup_eq_some_only group
      exact ⟨_, by simp, .group keyword opens body closes⟩
    · obtain ⟨⟨spec, after⟩, read, same⟩ := Option.map_eq_some_iff.mp alone
      cases same
      obtain ⟨tokens, rfl, reads⟩ := importSpec_eq_some.mp read
      exact ⟨_, by simp, .single keyword reads⟩
  · rintro ⟨read, rfl, decl⟩
    cases decl with
    | @group key opened closed body specs keyword opens inner closes =>
      have whole : Reader.importGroup (opened :: body ++ closed :: rest) = _ :=
        importGroup_body opens inner closes
      rw [List.append_assoc, List.singleton_append, List.cons_append, List.cons_append, mark,
        one_cons_of_true keyword, Option.bind_some, ← List.cons_append, whole]
      rfl
    | @single key read spec keyword one =>
      have alone : importSpec (read ++ rest) = some (spec, rest) :=
        importSpec_eq_some.mpr ⟨read, rfl, one⟩
      rw [List.cons_append, mark, one_cons_of_true keyword, Option.bind_some]
      simp only [alone, Option.map_some]
      rw [importGroup_eq_none one, Option.map_none, Option.none_or]

end Scaffold.Go
