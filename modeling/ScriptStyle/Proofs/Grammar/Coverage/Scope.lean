import ScriptStyle.Proofs.Grammar.Coverage.Construct

/-!
Coverage by the constructs that all others are made of: expressions with commas, spreads,
arguments and blocks.
-/

namespace ScriptStyle.Grammar

open ScriptStyle.Grammar.Parser

variable {origin : Scanner} {c m c' : Cursor} {scope : Scope}

-----------------------------------------------------------------------------------------
-- Expressions with commas
-----------------------------------------------------------------------------------------

section Separated

variable {item : Parser Expression} {items : List Expression}

/-- There is an expression among those with commas between them, and one alone is read by itself. -/
theorem Rounds.separated (repeated : Rounds (itemThenComma item) c items c')
    (each : ∀ {c c' : Cursor} {e : Expression}, c.Sound origin → item c = .ok (e, c')
      → ExpressionRead origin c e c')
    (sound : c.Sound origin)
    : items ≠ [] ∧ c.offset < c'.lastStop
      ∧ ∀ single, items = [single] → ExpressionRead origin c single c' := by
  induction repeated with
  | stop run =>
      simp only [itemThenComma, bind_ok, ite_ok, pure_ok] at run
      obtain ⟨value, m, -, eaten, _, -, ⟨-, stop, -⟩ | ⟨-, stop, -⟩⟩ := run <;> cases stop
  | @last c c' value run =>
      simp only [itemThenComma, bind_ok, ite_ok, pure_ok, eat_ok] at run
      obtain ⟨_, m, run, eaten, _, comma, ⟨-, stop, -⟩ | ⟨uneaten, same, rfl⟩⟩ := run
      · cases stop
      · rcases comma with ⟨taken, -⟩ | ⟨-, -, rfl⟩
        · exact absurd taken uneaten
        · obtain rfl := Round.last.inj same
          have read := each sound run
          refine ⟨List.cons_ne_nil _ _, read.rises, ?_⟩
          rintro _ ⟨⟩
          exact read
  | @more c m c' value items run rest ih =>
      simp only [itemThenComma, bind_ok, ite_ok, pure_ok] at run
      obtain ⟨_, m', run, eaten, _, comma, ⟨taken, same, rfl⟩ | ⟨-, stop, -⟩⟩ := run
      · obtain rfl := Round.more.inj same
        have read := each sound run
        have eats := (eat_held (by decide) read.sound comma).1
        obtain ⟨nonempty, rises, -⟩ := ih eats.sound
        obtain ⟨next, others, rfl⟩ := List.exists_cons_of_ne_nil nonempty
        refine ⟨List.cons_ne_nil _ _, ?_, fun single equal => by cases equal⟩
        have onward := read.offset_le
        have comma := eats.offset_le
        omega
      · cases stop

end Separated

namespace Scope

variable (deeper : scope.deeper.Covers origin)

include deeper

theorem assignment_read {allowIn : Bool} {e : Expression} (sound : c.Sound origin)
    (run : scope.assignment allowIn c = .ok (e, c'))
    : ExpressionRead origin c e c' :=
  deeper.assignment sound run

theorem statement_read {s : Statement} (sound : c.Sound origin)
    (run : scope.statement c = .ok (s, c'))
    : StatementRead origin c s c' :=
  deeper.statement sound run

theorem expression_read {allowIn : Bool} {e : Expression} (sound : c.Sound origin)
    (run : scope.expression allowIn c = .ok (e, c'))
    : ExpressionRead origin c e c' := by
  simp only [expression, bind_ok, start_ok] at run
  obtain ⟨_, _, ⟨token, here, rfl, rfl⟩, items, m, separated, run⟩ := run
  have each {c c' : Cursor} {e : Expression} (sound : c.Sound origin)
      (run : scope.assignment allowIn c = .ok (e, c')) := assignment_read deeper sound run
  have held := commaSeparated_held (fun sound run => (each sound run).toHeld) sound separated
  have covers : Round.Covers origin (itemThenComma (scope.assignment allowIn))
      Expression.shown :=
    itemThenComma_covers fun sound run => (each sound run).toCovered
  obtain ⟨-, rises, single⟩ := Rounds.separated (rounds_ok covers sound separated) each sound
  split at run
  · next value =>
      obtain ⟨rfl, rfl⟩ := pure_ok.mp run
      exact single value rfl
  · simp only [bind_ok, spanFrom_ok, pure_ok] at run
    obtain ⟨_, _, ⟨rfl, rfl⟩, rfl, rfl⟩ := run
    refine ⟨by rwa [Expression.shown, shownExpressions_eq], ?_, ?_, rises⟩
    · rw [Cursor.Sound.offset_eq here]
      rfl
    · have begins := Cursor.Sound.offset_eq here
      simp only [Expression.span]
      omega

/-- An expression between parentheses is enclosed by them. -/
theorem parenthesized_held {e : Expression} (sound : c.Sound origin)
    (run : scope.parenthesized c = .ok (e, c'))
    : Held origin c e.shown c' ∧ c.offset < c'.lastStop := by
  simp only [parenthesized, bind_ok, pure_ok] at run
  obtain ⟨_, m, opens, value, m', run, _, _, closes, rfl, rfl⟩ := run
  obtain ⟨before, rises⟩ := expect_held (by decide) sound opens
  have read := expression_read deeper before.sound run
  have after := (expect_held (by decide) read.sound closes).1
  refine ⟨before.trans (read.skip after), ?_⟩
  exact Nat.lt_of_lt_of_le rises (read.lastStop_le.trans after.lastStop_le)

theorem spreadOrAssignment_read {e : Expression} (sound : c.Sound origin)
    (run : scope.spreadOrAssignment c = .ok (e, c'))
    : ExpressionRead origin c e c' := by
  simp only [spreadOrAssignment, bind_ok, get_ok, ite_ok, start_ok, advance_ok, spanFrom_ok,
    pure_ok] at run
  obtain ⟨_, _, ⟨rfl, rfl⟩, ⟨dots, _, _, ⟨token, here, rfl, rfl⟩, _, _, rfl, operand, m, run, _, _,
    ⟨rfl, rfl⟩, rfl, rfl⟩ | ⟨-, run⟩⟩ := run
  · have before := sound.advance_held (Cursor.plain_of_sees (by decide) dots)
    have read := assignment_read deeper before.sound run
    have begins := Cursor.Sound.offset_eq here
    have rises : c.offset < m.lastStop :=
      Nat.lt_of_lt_of_le (sound.offset_lt_advance here).1 read.lastStop_le
    refine ⟨before.trans read.toHeld, begins.symm, ?_, rises⟩
    simp only [Expression.span]
    omega
  · exact assignment_read deeper sound run

/-- A list of arguments or parameters is enclosed by its parentheses. -/
theorem arguments_held {items : List Expression} (sound : c.Sound origin)
    (run : scope.arguments c = .ok (items, c'))
    : Held origin c (shownExpressions items) c' ∧ c.offset < c'.lastStop := by
  simp only [arguments, bind_ok] at run
  obtain ⟨_, m, opens, run⟩ := run
  obtain ⟨before, rises⟩ := expect_held (by decide) sound opens
  obtain ⟨held, -⟩ := commaListUntil_held (by decide)
    (fun sound run => (spreadOrAssignment_read deeper sound run).toCovered) before.sound run
  rw [shownExpressions_eq]
  exact ⟨before.trans held, Nat.lt_of_lt_of_le rises held.lastStop_le⟩

/-- Statements between braces are enclosed by them. -/
theorem block_held {block : Block} (sound : c.Sound origin)
    (run : scope.block c = .ok (block, c'))
    : Held origin c block.shown c' ∧ c.offset < c'.lastStop := by
  simp only [Scope.block, bind_ok, start_ok, spanFrom_ok, pure_ok] at run
  obtain ⟨_, _, ⟨token, here, rfl, rfl⟩, _, m, opens, body, m', run, span, _, ⟨-, rfl⟩, rfl, rfl⟩ :=
    run
  obtain ⟨before, rises⟩ := expect_held (by decide) sound opens
  obtain ⟨held, -⟩ := itemsUntil_held (by decide)
    (fun sound run => (statement_read deeper sound run).covered (.block span))
    (fun sound run => (statement_read deeper sound run).rises) before.sound run
  rw [Block.shown, shownStatements_eq]
  exact ⟨before.trans held, Nat.lt_of_lt_of_le rises held.lastStop_le⟩

omit deeper in
theorem identifier_read {e : Expression} (sound : c.Sound origin)
    (run : identifier c = .ok (e, c'))
    : ExpressionRead origin c e c' ∧ e.shown = [] := by
  simp only [identifier, bind_ok, get_ok] at run
  obtain ⟨_, _, ⟨rfl, rfl⟩, run⟩ := run
  cases here : c.peek? with
  | none => simp only [here, unexpected_ok] at run
  | some token =>
      simp only [here, ite_ok, bind_ok, advance_ok, pure_ok, unexpected_ok, and_false, or_false,
        beq_iff_eq] at run
      obtain ⟨kind, _, _, rfl, rfl, rfl⟩ := run
      have held := sound.advance_held (Cursor.plain_of_kind here (by rw [kind]; rfl))
      refine ⟨⟨held, (Cursor.Sound.offset_eq here).symm, (Cursor.advance_lastStop here).symm,
        (sound.offset_lt_advance here).1⟩, rfl⟩

omit deeper in
/-- An identifier shows nothing. -/
theorem identifier_held {e : Expression} (sound : c.Sound origin)
    (run : identifier c = .ok (e, c'))
    : Held origin c [] c' := by
  obtain ⟨read, shown⟩ := identifier_read sound run
  exact shown ▸ read.toHeld

end Scope

end ScriptStyle.Grammar
