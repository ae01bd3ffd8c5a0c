import ScriptStyle.Token
import ScriptStyle.Tree

/-!
Binary operators and the trees that their levels of precedence make of a chain of operands.
A chain is built up from left to right: each operator goes down the right edge of the tree
as long as it binds tighter than the operator it meets.
-/

namespace ScriptStyle.Grammar

/-- The level of precedence of a binary operator; a higher level binds tighter. -/
def operatorLevel? : String → Option Nat
  | "??" => some 1
  | "||" => some 2
  | "&&" => some 3
  | "|" => some 4
  | "^" => some 5
  | "&" => some 6
  | "==" | "!=" | "===" | "!==" => some 7
  | "<" | ">" | "<=" | ">=" | "instanceof" | "in" => some 8
  | "<<" | ">>" | ">>>" => some 9
  | "+" | "-" => some 10
  | "*" | "/" | "%" => some 11
  | "**" => some 12
  | _ => none

/-- The level of a binary operator, zero for anything else. -/
def operatorLevel (symbol : String) : Nat :=
  (operatorLevel? symbol).getD 0

/-- Whether an operator groups to the right when it is repeated. -/
def isRightAssociative (symbol : String) : Bool :=
  symbol == "**"

/-- Whether an operator takes the operand to the left of it away from an operator before that. -/
def bindsTighter (symbol before : String) : Bool :=
  decide (operatorLevel before < operatorLevel symbol)
    || (isRightAssociative before && operatorLevel symbol == operatorLevel before)

/-- Whether an operator is written as a word. -/
def isWordOperator (symbol : String) : Bool :=
  symbol == "instanceof" || symbol == "in"

/-- The binary operator that a token is, if it is one where `in` may or may not be one. -/
def binaryOperator? (allowIn : Bool) (token : Token) : Option String :=
  let fits :=
    match token.kind with
    | .punctuator => (operatorLevel? token.text).isSome
    | .identifier => token.text == "instanceof" || (allowIn && token.text == "in")
    | _ => false
  if fits then some token.text else none

/-- A tree of binary operators over operands. -/
inductive OperatorTree (α : Type) where
  | operand (value : α)
  | node (left : OperatorTree α) (symbol : String) (right : OperatorTree α)

namespace OperatorTree

variable {α : Type}

/-- A tree with one more operator and operand at its right end. -/
def push (tree : OperatorTree α) (symbol : String) (value : α) : OperatorTree α :=
  match tree with
  | operand first => node (operand first) symbol (operand value)
  | node left before right =>
      if bindsTighter symbol before then
        node left before (right.push symbol value)
      else
        node (node left before right) symbol (operand value)

/-- The tree of a chain: an operand, then operators each with the operand after it. -/
def ofChain (first : α) (others : List (String × α)) : OperatorTree α :=
  others.foldl (fun tree next => tree.push next.1 next.2) (operand first)

/-- The expression of a tree; each operation spans its operands. -/
def toExpression : OperatorTree Expression → Expression
  | operand value => value
  | node left _ right =>
      let left := left.toExpression
      let right := right.toExpression
      .binary left right ⟨left.span.start, right.span.stop⟩

end OperatorTree

end ScriptStyle.Grammar
