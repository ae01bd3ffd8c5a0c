import ScriptStyle.Grammar.Operator
import ScriptStyle.Proofs.Tree.Ledger

/-!
Trees of binary operators. Wherever an operator puts its operand, the operand is the last of
the tree in the order of the source.
-/

namespace ScriptStyle.Grammar.OperatorTree

variable (tree : OperatorTree Expression) (symbol : String) (value : Expression)

theorem push_shown
    : (tree.push symbol value).toExpression.shown = tree.toExpression.shown ++ value.shown := by
  induction tree with
  | operand first => simp only [push, toExpression, Expression.shown]
  | node left before right _ ih =>
      simp only [push]
      split
      · simp only [toExpression, Expression.shown, ih, List.append_assoc]
      · simp only [toExpression, Expression.shown]

theorem push_span
    : (tree.push symbol value).toExpression.span
      = ⟨tree.toExpression.span.start, value.span.stop⟩ := by
  induction tree with
  | operand first => rfl
  | node left before right _ ih =>
      simp only [push]
      split
      · change (⟨_, (right.push symbol value).toExpression.span.stop⟩ : Span) = _
        rw [ih]
        rfl
      · rfl

end ScriptStyle.Grammar.OperatorTree
