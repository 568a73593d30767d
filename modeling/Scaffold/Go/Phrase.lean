import Scaffold.Go.TypeReader

/-! Expressions and statements: what function bodies may hold, as phrases matched against tokens. -/

namespace Scaffold.Go

/-- The named phrases; `braces` tells whether a type name may be followed by a value in braces. -/
inductive Rule
  | expression (braces : Bool)
  | operand (braces : Bool)
  | value (braces : Bool)
  | suffix
  | brackets
  | arguments
  | literal
  | element
  | part
  | expressions (braces : Bool)
  | simple (braces : Bool)
  | block
  | statements
  | statement
  | condition
  | clause
  | communication
  | iteration
  | iterated
  | constants
  | constantSpec
  | vars
  | varSpec
  | types
  | typeSpec
  deriving DecidableEq, Repr

/-- What a stretch of tokens may look like. -/
inductive Phrase
  | mark (text : String)
  | oneOf (texts : List String)
  | ahead (text : String)
  | word
  | number
  | done
  | semicolon
  | type
  | typeParams
  | rule (name : Rule)
  | all (phrases : List Phrase)
  | first (phrases : List Phrase)
  | maybe (phrase : Phrase)
  | many (phrase : Phrase)

namespace Phrase

/-- One or more phrases with commas between them. -/
def separated (phrase : Phrase) : Phrase :=
  .all [phrase, .many (.all [.mark ",", phrase])]

/-- One specification, or any number of them between parentheses, each ended. -/
def grouped (phrase : Phrase) : Phrase :=
  .first [.all [.mark "(", .many (.all [phrase, .done]), .mark ")"], phrase]

end Phrase

namespace Rule

open Phrase

/-- What each named phrase looks like. -/
def phrase : Rule → Phrase
  | expression braces =>
    .all [.rule (operand braces), .many (.all [.oneOf ["||", "&&", "==", "!=", "<", "<=", ">",
      ">=", "+", "-", "|", "^", "*", "/", "%", "<<", ">>", "&", "&^"], .rule (operand braces)])]
  | operand braces =>
    -- An arrow begins a channel type or receives from a channel.
    .first [.all [.ahead "<-", .type, .many (.rule suffix)],
      .all [.oneOf ["+", "-", "!", "^", "*", "&", "<-"], .rule (operand braces)],
      .all [.rule (value braces), .many (.rule suffix)]]
  | value braces =>
    .first [
      .all [.word, .maybe (.all [.mark ".", .word]), .maybe (.rule brackets),
        if braces then .maybe (.rule literal) else .all []],
      .number,
      .all [.mark "(", .rule (expression true), .mark ")"],
      .all [.ahead "func", .type, .maybe (.rule block)],
      .all [.mark "[", .mark "...", .mark "]", .type, .rule literal],
      .all [.first [.ahead "[", .ahead "map", .ahead "chan", .ahead "struct",
        .ahead "interface"], .type, .maybe (.rule literal)]]
  | suffix =>
    .first [
      .all [.mark ".", .first [.word, .all [.mark "(", .first [.mark "type", .type], .mark ")"]]],
      .rule brackets, .rule arguments]
  | brackets =>
    let bounds : Phrase := .all [.mark ":", .maybe (.rule (expression true)),
      .maybe (.all [.mark ":", .maybe (.rule (expression true))])]
    .all [.mark "[", .first [bounds, .all [.rule (expression true), .first [bounds,
      .all [.many (.all [.mark ",", .rule (expression true)]), .maybe (.mark ",")]]]], .mark "]"]
  | arguments =>
    .all [.mark "(", .maybe (.all [separated (.rule (expression true)), .maybe (.mark "..."),
      .maybe (.mark ",")]), .mark ")"]
  | literal =>
    .all [.mark "\x7b", .maybe (.all [separated (.rule element), .maybe (.mark ",")]),
      .mark "\x7d"]
  | element => .all [.rule part, .maybe (.all [.mark ":", .rule part])]
  | part => .first [.rule literal, .rule (expression true)]
  | expressions braces => separated (.rule (expression braces))
  | simple braces =>
    .all [.rule (expressions braces), .maybe (.first [
      .all [.oneOf [":=", "=", "+=", "-=", "*=", "/=", "%=", "&=", "|=", "^=", "<<=", ">>=",
        "&^="], .rule (expressions braces)],
      .oneOf ["++", "--"],
      .all [.mark "<-", .rule (expression braces)]])]
  | block => .all [.mark "\x7b", .rule statements, .mark "\x7d"]
  | statements =>
    .all [.many .done, .maybe (.all [.rule statement, .maybe (.all [.done, .rule statements])])]
  | statement =>
    .first [
      .rule block,
      .all [.mark "if", .rule condition],
      .all [.mark "switch", .maybe (.rule (simple false)),
        .maybe (.all [.semicolon, .maybe (.rule (simple false))]),
        .mark "\x7b", .many (.rule clause), .mark "\x7d"],
      .all [.mark "select", .mark "\x7b", .many (.rule communication), .mark "\x7d"],
      .all [.mark "for", .rule iteration],
      .all [.mark "return", .maybe (.rule (expressions true))],
      .all [.oneOf ["go", "defer"], .rule (expression true)],
      .all [.oneOf ["break", "continue"], .maybe .word],
      .all [.mark "goto", .word],
      .mark "fallthrough",
      .all [.mark "const", .rule constants],
      .all [.mark "var", .rule vars],
      .all [.mark "type", .rule types],
      .all [.word, .mark ":", .maybe (.rule statement)],
      .rule (simple true)]
  | condition =>
    .all [.first [
        .all [.rule (simple false), .maybe (.all [.semicolon, .rule (simple false)])],
        .all [.semicolon, .rule (simple false)]],
      .rule block,
      .maybe (.all [.mark "else", .first [.all [.mark "if", .rule condition], .rule block]])]
  | clause =>
    .all [.first [.all [.mark "case", .rule (expressions true)], .mark "default"], .mark ":",
      .rule statements]
  | communication =>
    .all [.first [.all [.mark "case", .rule (simple true)], .mark "default"], .mark ":",
      .rule statements]
  | iteration =>
    .all [.first [
        .all [.mark "range", .rule (expression false)],
        .all [.maybe (.rule iterated), .maybe (.all [.semicolon, .maybe (.rule (simple false)),
          .semicolon, .maybe (.rule (simple false))])]],
      .rule block]
  | iterated =>
    .all [.rule (expressions false), .maybe (.first [
      .all [.oneOf [":=", "="], .first [.all [.mark "range", .rule (expression false)],
        .rule (expressions false)]],
      .all [.oneOf ["+=", "-=", "*=", "/=", "%=", "&=", "|=", "^=", "<<=", ">>=", "&^="],
        .rule (expressions false)],
      .oneOf ["++", "--"],
      .all [.mark "<-", .rule (expression false)]])]
  | constants => grouped (.rule constantSpec)
  | constantSpec =>
    .all [separated .word, .maybe (.first [
      .all [.mark "=", .rule (expressions true)],
      .all [.type, .mark "=", .rule (expressions true)]])]
  | vars => grouped (.rule varSpec)
  | varSpec =>
    .all [separated .word, .first [
      .all [.mark "=", .rule (expressions true)],
      .all [.type, .maybe (.all [.mark "=", .rule (expressions true)])]]]
  | types => grouped (.rule typeSpec)
  | typeSpec =>
    -- What could be the length of an array is one.
    .all [.word, .first [.all [.mark "=", .type], .type,
      .all [.typeParams, .maybe (.mark "="), .type]]]

end Rule

namespace Reader

open Reading

/-- Matches a phrase in at most `limit` steps inside one another. -/
def phraseWithin : Nat → Phrase → Reader Unit
  | 0, _ => failure
  | limit + 1, phrase =>
    let type := typeWithin (phraseWithin limit (.rule (.expression true))) limit
    match phrase with
    | .mark text => discard (mark text)
    | .oneOf texts => discard (one fun next => texts.any next.isMark)
    | .ahead text => ahead [text]
    | .word => discard word
    | .number => discard (one fun next => [.number, .rune, .text].contains next.kind)
    | .done => discard done
    | .semicolon => discard (one fun next => next.kind == .terminator && next.text == ";")
    | .type => discard type
    | .typeParams => discard (typeParams type)
    | .rule name => phraseWithin limit name.phrase
    | .all [] => pure ()
    | .all (part :: rest) => do
      phraseWithin limit part
      phraseWithin limit (.all rest)
    | .first [] => failure
    | .first (choice :: rest) =>
      either (phraseWithin limit choice) (phraseWithin limit (.first rest))
    | .maybe part => either (phraseWithin limit part) (pure ())
    | .many part =>
      either (do
        phraseWithin limit part
        phraseWithin limit (.many part)) (pure ())

/-- Matches a phrase. -/
def phrase (wanted : Phrase) : Reader Unit := do
  -- Between two tokens only boundedly many steps go inside one another.
  phraseWithin (100 * (← remaining).length) wanted

/-- Reads a type. -/
def type : Reader TypeExpr := do
  typeWithin (phrase (.rule (.expression true))) (← remaining).length

end Reader

end Scaffold.Go
