import ScriptStyle.Grammar.Operand
import ScriptStyle.Grammar.Operator

/-!
Expressions without commas: arrow functions, `yield`, assignments, conditionals, and chains
of binary operators.
-/

namespace ScriptStyle.Grammar

/-- Whether an arrow follows the bracket that closes the first one in the tokens.
The depth counts the open brackets so far. -/
def arrowAfterBrackets : Nat → List Token → Bool
  | _, [] => false
  | depth, token :: rest =>
      if token.isPunctuatorIn ["(", "[", "\x7b"] then
        arrowAfterBrackets (depth + 1) rest
      else if token.isPunctuatorIn [")", "]", "\x7d"] then
        if depth ≤ 1 then
          rest.head?.any (·.isPunctuator "=>")
        else
          arrowAfterBrackets (depth - 1) rest
      else
        arrowAfterBrackets depth rest

/-- Whether the parameters of an arrow function are after a number of tokens. -/
def Cursor.arrowAt (cursor : Cursor) (count : Nat) : Bool :=
  match cursor.peekAt? count with
  | some token =>
      if token.kind == .identifier then
        cursor.seesNth (count + 1) "=>"
      else
        token.isPunctuator "(" && arrowAfterBrackets 0 ((significant cursor.ahead).drop count)
  | none => false

namespace Scope

/-- The parameters of an arrow function; a single name needs no parentheses. -/
def arrowParams (scope : Scope) : Parser (List Expression) := do
  if (← get).sees "(" then scope.params else List.singleton <$> identifier

/-- An arrow function, from its parameters or the word in front of them. -/
def arrow (scope : Scope) (allowIn isAsync : Bool) : Parser Expression := do
  let start ← Parser.start
  Parser.advanceIf isAsync
  let params ← scope.arrowParams
  Parser.expect "=>"
  if (← get).sees "\x7b" then
    let body ← scope.functionBody false
    Parser.markArrowEnd
    let span ← Parser.spanFrom start
    pure (.arrowBlock params body isAsync span)
  else
    let body ← (scope.inFunction false).assignment allowIn
    let span ← Parser.spanFrom start
    pure (.arrowValue params body isAsync span)

/-- The punctuators before which `yield` has no operand. -/
def yieldEnds : List String := [")", "]", "\x7d", ",", ";", ":"]

/-- The asterisk of a `yield` that delegates; it must stand on the same line. -/
def delegation : Parser Bool := do
  if (← get).newlineAt 0 then pure false else Parser.eat "*"

/-- A `yield` with its operand, which must begin on the same line unless it is delegated to. -/
def yielded (scope : Scope) (allowIn : Bool) : Parser Expression := do
  let start ← Parser.start
  Parser.advance
  let delegates ← delegation
  let hasOperand := delegates
    || (← get).peek?.any fun token => !token.newlineBefore && !token.isPunctuatorIn yieldEnds
  let operand ← Parser.onlyIf hasOperand (scope.assignment allowIn)
  let span ← Parser.spanFrom start
  pure (.yield operand span)

/-- A binary operator and the operand after it, if there is one at the cursor.
A slash after an operand divides. -/
def operation (scope : Scope) (allowIn : Bool) : Parser (Parser.Round (String × Expression)) := do
  Parser.rereadAt .regex .division
  match (← get).peek?.bind (binaryOperator? allowIn) with
  | none => pure .stop
  | some symbol => do
      Parser.advance
      let _ ← Parser.start
      let operand ← scope.unary
      pure (.more (symbol, operand))

/-- Operands with binary operators between them. -/
def binary (scope : Scope) (allowIn : Bool) : Parser Expression := do
  let _ ← Parser.start
  let first ← scope.unary
  let others ← Parser.rounds (scope.operation allowIn)
  pure (OperatorTree.ofChain first others).toExpression

/-- A conditional expression. -/
def conditional (scope : Scope) (allowIn : Bool) : Parser Expression := do
  let start ← Parser.start
  let test ← scope.binary allowIn
  if ← Parser.eat "?" then
    let consequent ← scope.assignment true
    Parser.expect ":"
    let alternate ← scope.assignment allowIn
    let span ← Parser.spanFrom start
    pure (.conditional test consequent alternate span)
  else
    pure test

/-- The operators that assign. -/
def assignmentOperators : List String := [
  "=", "+=", "-=", "*=", "/=", "%=", "**=", "<<=", ">>=", ">>>=", "&=", "|=", "^=", "&&=", "||=",
  "??="
]

/-- An expression without commas. -/
def assignmentNode (scope : Scope) (allowIn : Bool) : Parser Expression := do
  let cursor ← get
  let isAsync := cursor.sees "async" && !cursor.newlineAt 1 && cursor.arrowAt 1
  if isAsync || cursor.arrowAt 0 then
    scope.arrow allowIn isAsync
  else if scope.inGenerator && cursor.sees "yield" then
    scope.yielded allowIn
  else
    let start ← Parser.start
    let target ← scope.conditional allowIn
    if (← get).peek?.any (·.isPunctuatorIn assignmentOperators) then
      Parser.advance
      let value ← scope.assignment allowIn
      let span ← Parser.spanFrom start
      pure (.assign target value span)
    else
      pure target

end Scope

end ScriptStyle.Grammar
