import ScriptStyle.Proofs.Grammar.Coverage.Expression
import ScriptStyle.Proofs.Grammar.Layout.Suffix

/-!
How expressions without commas are laid out. The operands of a chain of binary operators lie one
after another, so each operation that is made of them lies between the ends of its operands. An
arrow function with a block notes the brace that closes it.
-/

namespace ScriptStyle.Grammar

open ScriptStyle.Grammar.Parser

variable {origin : Scanner} {c m c' : Cursor} {scope : Scope}

-----------------------------------------------------------------------------------------
-- Trees of binary operators
-----------------------------------------------------------------------------------------

namespace OperatorTree

/-- The operands of a tree fit in their own spans and lie one after another. -/
inductive Arranged (tokens : List Token) : OperatorTree Expression → Prop
  | operand {value : Expression} (fits : (Node.expression value).Fits tokens value.span)
    (ordered : value.span.start ≤ value.span.stop)
    : Arranged tokens (.operand value)
  | node {left right : OperatorTree Expression} {symbol : String} (first : Arranged tokens left)
    (second : Arranged tokens right)
    (apart : left.toExpression.span.stop ≤ right.toExpression.span.start)
    : Arranged tokens (.node left symbol right)

namespace Arranged

variable {tokens : List Token} {tree : OperatorTree Expression} {symbol : String}
  {value : Expression}

theorem ordered (arranged : Arranged tokens tree)
    : tree.toExpression.span.start ≤ tree.toExpression.span.stop := by
  induction arranged with
  | operand _ ordered => exact ordered
  | node _ _ apart before behind => exact (before.trans apart).trans behind

/-- The expression of an arranged tree fits in its own span. -/
theorem fits (arranged : Arranged tokens tree)
    : (Node.expression tree.toExpression).Fits tokens tree.toExpression.span := by
  induction arranged with
  | operand fits _ => exact fits
  | node first second apart before behind =>
      have front := first.ordered
      have back := second.ordered
      refine .intro (fun span same => ?_) (by simp [toExpression, Node.heldSpans]) (by simp [Node.extent?])
        (by simp [Node.body?]) (fun child direct => ?_)
      · obtain rfl := Option.some.inj same
        exact Span.encloses_refl _
      · simp only [toExpression, Node.children, Node.ofExpression, List.mem_cons, List.not_mem_nil,
          or_false] at direct
        rcases direct with rfl | rfl
        · exact before.mono (Span.encloses_iff.mpr ⟨Nat.le_refl _, apart.trans back⟩)
        · exact behind.mono (Span.encloses_iff.mpr ⟨front.trans apart, Nat.le_refl _⟩)

/-- One more operand behind an arranged tree keeps it arranged. -/
theorem push (arranged : Arranged tokens tree) (operand : Arranged tokens (.operand value))
    (apart : tree.toExpression.span.stop ≤ value.span.start)
    : Arranged tokens (tree.push symbol value) := by
  induction arranged with
  | operand fits ordered => exact .node (.operand fits ordered) operand apart
  | @node left right before first second between _ ih =>
      simp only [OperatorTree.push]
      split
      · refine .node first (ih apart) ?_
        rw [push_span]
        exact between
      · exact .node (.node first second between) operand apart

end Arranged

/-- The arrow functions of a tree are those of its operands. -/
theorem push_closesArrow {tokens : List Token} (tree : OperatorTree Expression) (symbol : String)
    (value : Expression) (index : Nat)
    : (Node.expression (tree.push symbol value).toExpression).ClosesArrow tokens index
      ↔ (Node.expression tree.toExpression).ClosesArrow tokens index
        ∨ (Node.expression value).ClosesArrow tokens index := by
  have binary (left right : OperatorTree Expression) (symbol : String)
      : (Node.expression (node left symbol right).toExpression).ClosesArrow tokens index
        ↔ (Node.expression left.toExpression).ClosesArrow tokens index
          ∨ (Node.expression right.toExpression).ClosesArrow tokens index := by
    rw [Node.closesArrow_iff]
    simp [toExpression, Node.children, Node.ofExpression]
  induction tree with
  | operand first => exact binary _ _ symbol
  | node left before right _ ih =>
      simp only [push]
      split
      · rw [binary, binary]
        exact (or_congr_right ih).trans or_assoc.symm
      · exact binary _ _ symbol

end OperatorTree

namespace Scope

variable (deeper : scope.deeper.Lays origin)

-----------------------------------------------------------------------------------------
-- Chains of operators
-----------------------------------------------------------------------------------------

theorem unbraced_of_binaryOperator {allowIn : Bool} {token : Token} {symbol : String}
    (here : c.peek? = some token) (operator : binaryOperator? allowIn token = some symbol)
    : c.Unbraced := by
  cases kind : token.kind
    <;> simp only [binaryOperator?, kind, Option.ite_none_right_eq_some, false_and,
      Bool.false_eq_true] at operator
  case identifier => exact Cursor.unbraced_of_kind here (by simp [kind])
  case punctuator =>
    refine Cursor.unbraced_of_text here ⟨fun text => ?_, fun text => ?_⟩
    all_goals
      rw [text] at operator
      cases operator.1

include deeper

/-- A round of a chain finds an operand behind an operator, or stops. -/
theorem operation_laid {allowIn : Bool} {found : Round (String × Expression)}
    (sound : c.Sound origin) (run : scope.operation allowIn c = .ok (found, c'))
    : (found = .stop ∧ Laid origin c [] c')
      ∨ ∃ symbol value m, found = .more (symbol, value) ∧ Laid origin c [] m
          ∧ ExpressionRead origin m value c' ∧ Laid origin m [.expression value] c' := by
  simp only [operation, bind_ok, get_ok] at run
  obtain ⟨_, m, again, _, _, ⟨rfl, rfl⟩, run⟩ := run
  have first := rereadAt_laid sound again
  cases operator : m.peek?.bind (binaryOperator? allowIn) with
  | none =>
      simp only [operator] at run
      obtain ⟨rfl, rfl⟩ := pure_ok.mp run
      exact .inl ⟨rfl, first⟩
  | some symbol =>
      simp only [operator, bind_ok, advance_ok, start_ok, pure_ok] at run
      obtain ⟨_, _, rfl, _, _, ⟨token, there, rfl, rfl⟩, value, _, read, rfl, rfl⟩ := run
      obtain ⟨operand, here, operator⟩ := Option.bind_eq_some_iff.mp operator
      have second := first.trans
        (first.sound.advance_laid (unbraced_of_binaryOperator here operator))
      exact .inr ⟨_, _, _, rfl, second, deeper.unary second.sound read,
        deeper.unary_laid second.sound read⟩

omit deeper in
/-- A tree of operators is laid out with one more operand. -/
theorem push_laid {tree : OperatorTree Expression} {symbol : String} {value : Expression}
    (laid : Laid origin c [.expression tree.toExpression] m)
    (second : Laid origin m [.expression value] c')
    (read : ExpressionRead origin c (tree.push symbol value).toExpression c')
    (arranged : ∀ tokens, c'.Completes origin tokens → (tree.push symbol value).Arranged tokens)
    : Laid origin c [.expression (tree.push symbol value).toExpression] c' where
  toMoves := laid.toMoves.trans second.toMoves
  balanced := (laid.trans second).balanced
  arrows := by
    intro tokens complete index
    rw [(laid.trans second).arrows tokens complete]
    simp [OperatorTree.push_closesArrow]
  fits := by
    intro tokens complete node member
    obtain rfl := List.mem_singleton.mp member
    rw [← read.span]
    exact (arranged tokens complete).fits

theorem binary_laid {allowIn : Bool} {e : Expression} (sound : c.Sound origin)
    (run : scope.binary allowIn c = .ok (e, c'))
    : Laid origin c [.expression e] c' := by
  simp only [binary, bind_ok, start_ok, pure_ok] at run
  obtain ⟨_, _, ⟨token, here, rfl, rfl⟩, first, m, read, others, _, repeated, rfl, rfl⟩ := run
  have before := deeper.unary sound read
  have laid := deeper.unary_laid sound read
  have rounds := rounds_ok (operation_covers deeper.toCovers allowIn) before.sound repeated
  -- An operand that is read lies in its own span.
  have operand {c c' : Cursor} {value : Expression} (read : ExpressionRead origin c value c')
      (laid : Laid origin c [.expression value] c') (tokens : List Token)
      (complete : c'.Completes origin tokens)
      : (OperatorTree.operand value).Arranged tokens := by
    have fits := laid.fits tokens complete _ (List.mem_singleton_self _)
    rw [← read.span] at fits
    refine .operand fits ?_
    rw [read.span]
    exact Nat.le_of_lt read.rises
  have arranged := operand before laid
  clear repeated read
  rw [OperatorTree.ofChain]
  change ExpressionRead origin c (OperatorTree.operand first).toExpression m at before
  change Laid origin c [.expression (OperatorTree.operand first).toExpression] m at laid
  generalize OperatorTree.operand first = tree at before laid arranged
  -- The tree so far is laid out up to where the rounds go on.
  induction rounds generalizing tree with
  | stop run =>
      rcases operation_laid deeper before.sound run with ⟨-, last⟩ | ⟨_, _, _, equal, -⟩
      · exact laid.skip last
      · cases equal
  | last run =>
      rcases operation_laid deeper before.sound run with ⟨equal, -⟩ | ⟨_, _, _, equal, -⟩ <;> cases equal
  | @more m reached c' item items run rest ih =>
      rcases operation_laid deeper before.sound run with ⟨equal, -⟩
        | ⟨symbol, value, start, equal, front, found, second⟩
      · cases equal
      rcases operation_held deeper.toCovers before.sound run with ⟨equal', -⟩
        | ⟨_, _, equal', held, -, stop⟩
      · cases equal.symm.trans equal'
      obtain ⟨rfl, rfl⟩ : _ ∧ _ := by simpa using equal.symm.trans equal'
      obtain rfl := Round.more.inj equal
      have wider : ExpressionRead origin c (tree.push symbol value).toExpression reached :=
        before.push held stop
      have onward (tokens : List Token) (complete : reached.Completes origin tokens)
          : (tree.push symbol value).Arranged tokens := by
        refine (arranged tokens (complete.of_moves (front.toMoves.trans second.toMoves))).push
          (operand found second tokens complete) ?_
        rw [before.span, found.span]
        exact before.sound.lastStop_le_offset.1.trans front.offset_le
      exact ih (tree.push symbol value) wider (push_laid laid (second.after front) wider onward) onward

theorem conditional_laid {allowIn : Bool} {e : Expression} (sound : c.Sound origin)
    (run : scope.conditional allowIn c = .ok (e, c'))
    : Laid origin c [.expression e] c' := by
  have read := conditional_read deeper.toCovers sound run
  simp only [conditional, bind_ok, start_ok, ite_ok, spanFrom_ok, pure_ok] at run
  obtain ⟨_, _, ⟨token, here, rfl, rfl⟩, test, m, tested, _, m₁, question, run⟩ := run
  have first := binary_laid deeper sound tested
  have second := first.skip (eat_laid (by decide) first.sound question)
  rcases run with ⟨-, consequent, m₂, chosen, _, m₃, colon, alternate, m₄, last, _, _, ⟨rfl, rfl⟩,
    rfl, rfl⟩ | ⟨-, rfl, rfl⟩
  · have third := second.trans (assignment_laid deeper second.sound chosen)
    have fourth := third.skip (expect_laid (by decide) third.sound colon)
    have inner := fourth.trans (assignment_laid deeper fourth.sound last)
    exact inner.expression read rfl
  · exact second

-----------------------------------------------------------------------------------------
-- Functions and assignments
-----------------------------------------------------------------------------------------

theorem arrowParams_laid {params : List Expression} (sound : c.Sound origin)
    (run : scope.arrowParams c = .ok (params, c'))
    : Laid origin c (params.map .expression) c' := by
  simp only [arrowParams, bind_ok, get_ok, ite_ok, map_ok] at run
  obtain ⟨_, _, ⟨rfl, rfl⟩, ⟨-, listed⟩ | ⟨-, name, named, rfl⟩⟩ := run
  · exact arguments_laid deeper sound listed
  · exact identifier_laid sound named

omit deeper in
/-- An arrow function with a block is laid out, and the brace that closes it is noted. -/
theorem arrowBlock_laid {params : List Expression} {body : Block} {isAsync : Bool} {span : Span}
    (inner : Laid origin c (params.map .expression ++ [.block body]) m)
    (braced : ∀ tokens, m.Completes origin tokens → ∃ opening,
      body.toBody.BracedAt tokens opening m.lastIndex)
    (whole : span = ⟨c.offset, m.lastStop⟩)
    : Laid origin c [.expression (.arrowBlock params body isAsync span)]
        { m with arrowEnds := m.lastIndex :: m.arrowEnds } := by
  have marked := inner.sound.markArrowEnd_held.moves
  have laid : Laid origin c (Node.expression (.arrowBlock params body isAsync span)).children m :=
    inner
  refine ⟨inner.toMoves.trans marked, inner.balanced, fun tokens complete index => ?_,
    fun tokens complete node member => ?_⟩
  · have complete' := complete.of_moves marked
    obtain ⟨opening, closed⟩ := braced tokens complete'
    have own : (∃ params' body' isAsync' span' opening,
          Node.expression (.arrowBlock params body isAsync span)
            = Node.expression (.arrowBlock params' body' isAsync' span')
          ∧ body'.toBody.BracedAt tokens opening index)
        ↔ index = m.lastIndex := by
      constructor
      · rintro ⟨_, _, _, _, _, ⟨rfl, rfl, rfl, rfl⟩, other⟩
        obtain ⟨stop, trail⟩ := complete.trail
        obtain ⟨first, here, -, ends⟩ := other.closes
        obtain ⟨second, there, -, ends'⟩ := closed.closes
        exact trail.index_unique here there (ends.trans ends'.symm)
      · rintro rfl
        exact ⟨_, _, _, _, opening, rfl, closed⟩
    simp only [List.mem_cons, List.not_mem_nil, or_false, exists_eq_left]
    rw [Node.closesArrow_iff, own, laid.arrows tokens complete', or_left_comm]
  · obtain rfl := List.mem_singleton.mp member
    exact laid.fits_around (fun found same => (Option.some.inj same).symm.trans whole)
      (by simp [Node.heldSpans]) (complete.of_moves marked) (by simp [Node.extent?]) (by simp [Node.body?])

theorem arrow_laid {allowIn isAsync : Bool} {e : Expression} (sound : c.Sound origin)
    (read : ExpressionRead origin c e c') (unbraced : isAsync → c.Unbraced)
    (run : scope.arrow allowIn isAsync c = .ok (e, c'))
    : Laid origin c [.expression e] c' := by
  simp only [arrow, bind_ok, start_ok, get_ok, ite_ok, markArrowEnd_ok, spanFrom_ok, pure_ok] at run
  obtain ⟨_, _, ⟨token, here, rfl, rfl⟩, _, m, async, params, m₁, listed, _, m₂, arrow, _, _,
    ⟨rfl, rfl⟩, run⟩ := run
  have first := advanceIf_laid sound async unbraced
  have second := (arrowParams_laid deeper first.sound listed).after first
  have third := second.skip (expect_laid (by decide) second.sound arrow)
  have deeper' : (scope.inFunction false).deeper.Lays origin := deeper
  rcases run with ⟨-, body, m₃, enclosed, _, _, rfl, _, _, ⟨rfl, rfl⟩, rfl, rfl⟩
    | ⟨-, body, m₃, given, _, _, ⟨rfl, rfl⟩, rfl, rfl⟩
  · obtain ⟨fourth, braced⟩ := functionBody_laid deeper third.sound enclosed
    exact arrowBlock_laid (third.trans fourth) (fun tokens complete => ⟨_, braced tokens complete⟩)
      read.span
  · have inner := third.trans (assignment_laid deeper' third.sound given)
    exact inner.expression read rfl

theorem yielded_laid {allowIn : Bool} {e : Expression} (sound : c.Sound origin)
    (yields : c.sees "yield") (run : scope.yielded allowIn c = .ok (e, c'))
    : Laid origin c [.expression e] c' := by
  have read := yielded_read deeper.toCovers sound (Cursor.plain_of_sees (by decide) yields) run
  simp only [yielded, bind_ok, start_ok, get_ok, advance_ok, spanFrom_ok, pure_ok] at run
  obtain ⟨_, _, ⟨token, here, rfl, rfl⟩, _, _, rfl, delegates, m, star, _, _, ⟨rfl, rfl⟩, operand, m₁,
    given, _, _, ⟨rfl, rfl⟩, rfl, rfl⟩ := run
  have first := sound.advance_laid (Cursor.unbraced_of_sees (by decide) yields)
  have second : Laid origin c.advance [] m := by
    simp only [delegation, bind_ok, get_ok, ite_ok, pure_ok] at star
    obtain ⟨_, _, ⟨rfl, rfl⟩, ⟨-, -, rfl⟩ | ⟨-, eaten⟩⟩ := star
    · exact .refl first.sound
    · exact eat_laid (by decide) first.sound eaten
  have front := first.trans second
  have inner := (onlyIf_laid (assignment_laid deeper) front.sound given).after front
  exact inner.expression read rfl

theorem assignmentNode_laid {allowIn : Bool} {e : Expression} (sound : c.Sound origin)
    (run : scope.assignmentNode allowIn c = .ok (e, c'))
    : Laid origin c [.expression e] c' := by
  have read := assignmentNode_read deeper.toCovers sound run
  simp only [assignmentNode, bind_ok, get_ok, ite_ok, start_ok, advance_ok, spanFrom_ok, pure_ok]
    at run
  obtain ⟨_, _, ⟨rfl, rfl⟩, ⟨-, run⟩ | ⟨-, ⟨yields, run⟩ | ⟨-, run⟩⟩⟩ := run
  · refine arrow_laid deeper sound read (fun async => ?_) run
    simp only [Bool.and_eq_true] at async
    exact Cursor.unbraced_of_sees (by decide) async.1.1
  · simp only [Bool.and_eq_true] at yields
    exact yielded_laid deeper sound yields.2 run
  · obtain ⟨_, _, ⟨token, here, rfl, rfl⟩, target, m, found, _, _, ⟨rfl, rfl⟩, run⟩ := run
    have first := conditional_laid deeper sound found
    rcases run with ⟨assigns, _, _, rfl, value, m₁, given, _, _, ⟨rfl, rfl⟩, rfl, rfl⟩ | ⟨-, rfl, rfl⟩
    · simp only [Option.any_eq_true] at assigns
      obtain ⟨operator, there, assigns⟩ := assigns
      have second := first.skip
        (first.sound.advance_laid (Cursor.unbraced_of_isPunctuatorIn (by decide) there assigns))
      have inner := second.trans (assignment_laid deeper second.sound given)
      exact inner.expression read rfl
    · exact first

end Scope

end ScriptStyle.Grammar
