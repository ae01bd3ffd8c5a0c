import ScriptStyle.Grammar.Parser

/-!
The constructs of the grammar contain each other. Those through which every nesting goes are
kept in one record, one record for each depth, so that a construct at one depth is made of
constructs of the next.
-/

namespace ScriptStyle.Grammar

/-- The constructs that count as one level of nesting. The first argument of each tells
whether it stands directly in a generator, where `yield` is an operator. -/
structure Level where
  statement : Bool → Parser Statement
  /-- An expression without commas; the second argument tells whether `in` is an operator. -/
  assignment : Bool → Bool → Parser Expression
  /-- An operand with the operators in front of it. -/
  unary : Bool → Parser Expression
  /-- What a class extends. -/
  heritage : Bool → Parser Expression
  /-- A construction that is itself constructed from. -/
  construct : Bool → Parser Expression

/-- What a construct depends on: the constructs one level deeper, and the function around it. -/
structure Scope where
  deeper : Level
  inGenerator : Bool

namespace Scope

/-- A scope in the body of a function of the given kind. -/
def inFunction (scope : Scope) (isGenerator : Bool) : Scope :=
  { scope with inGenerator := isGenerator }

/-- A statement, one level deeper. -/
def statement (scope : Scope) : Parser Statement :=
  scope.deeper.statement scope.inGenerator

/-- An expression without commas, one level deeper. -/
def assignment (scope : Scope) (allowIn : Bool) : Parser Expression :=
  scope.deeper.assignment scope.inGenerator allowIn

/-- An operand with the operators in front of it, one level deeper. -/
def unary (scope : Scope) : Parser Expression :=
  scope.deeper.unary scope.inGenerator

/-- What a class extends, one level deeper. -/
def heritage (scope : Scope) : Parser Expression :=
  scope.deeper.heritage scope.inGenerator

/-- A construction that is itself constructed from, one level deeper. -/
def innerConstruct (scope : Scope) : Parser Expression :=
  scope.deeper.construct scope.inGenerator

/-- An expression, with commas if it is a sequence. -/
def expression (scope : Scope) (allowIn : Bool) : Parser Expression := do
  let start ← Parser.start
  match ← Parser.commaSeparated (scope.assignment allowIn) with
  | [single] => pure single
  | items => do
      let span ← Parser.spanFrom start
      pure (.sequence items span)

/-- An expression between parentheses that belong to the statement around it. -/
def parenthesized (scope : Scope) : Parser Expression := do
  Parser.expect "("
  let value ← scope.expression true
  Parser.expect ")"
  pure value

/-- An expression without commas, or a spread of one. -/
def spreadOrAssignment (scope : Scope) : Parser Expression := do
  if (← get).sees "..." then
    let start ← Parser.start
    Parser.advance
    let operand ← scope.assignment true
    let span ← Parser.spanFrom start
    pure (.spread operand span)
  else
    scope.assignment true

/-- The arguments of a call, with their parentheses. -/
def arguments (scope : Scope) : Parser (List Expression) := do
  Parser.expect "("
  Parser.commaListUntil ")" scope.spreadOrAssignment

/-- A block with its braces. -/
def block (scope : Scope) : Parser Block := do
  let start ← Parser.start
  Parser.expect "\x7b"
  let body ← Parser.itemsUntil "\x7d" scope.statement
  let span ← Parser.spanFrom start
  pure ⟨body, span⟩

end Scope

/-- An identifier; any word will do. -/
def identifier : Parser Expression := do
  match (← get).peek? with
  | some token =>
      if token.kind == .identifier then
        Parser.advance
        pure (.identifier token.span)
      else
        Parser.unexpected "identifier"
  | none => Parser.unexpected "identifier"

end ScriptStyle.Grammar
