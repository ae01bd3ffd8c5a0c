import ScriptStyle.Proofs.Grammar.Coverage.Suffix
import ScriptStyle.Proofs.Grammar.Operators

/-!
Coverage by expressions without commas. Only an arrow function gets past an arrow, and it does
not begin at one.
-/

namespace ScriptStyle.Grammar

open ScriptStyle.Grammar.Parser

variable {origin : Scanner} {c m c' : Cursor} {scope : Scope}

/-- A tree of operators is read with one more operand. -/
theorem ExpressionRead.push {tree : OperatorTree Expression} {symbol : String} {value : Expression}
    (read : ExpressionRead origin c tree.toExpression m) (held : Held origin m value.shown c')
    (stop : value.span.stop = c'.lastStop)
    : ExpressionRead origin c (tree.push symbol value).toExpression c' := by
  refine ⟨?_, ?_, ?_, Nat.lt_of_lt_of_le read.rises held.lastStop_le⟩
  · rw [OperatorTree.push_shown]
    exact read.toHeld.trans held
  · rw [OperatorTree.push_span]
    exact read.start
  · rw [OperatorTree.push_span]
    exact stop

namespace Scope

variable (deeper : scope.deeper.Covers origin)

-----------------------------------------------------------------------------------------
-- Chains of operators
-----------------------------------------------------------------------------------------

/-- A punctuator from a list without arrows and semicolons is plain. -/
theorem plain_of_isPunctuatorIn {token : Token} {texts : List String}
    (other : "=>" ∉ texts ∧ ";" ∉ texts) (here : c.peek? = some token)
    (listed : token.isPunctuatorIn texts)
    : c.Plain := by
  simp only [Token.isPunctuatorIn, Bool.and_eq_true, beq_iff_eq, List.contains_iff_mem] at listed
  exact Cursor.plain_of_punctuator here listed.1 (fun arrow => other.1 (arrow ▸ listed.2))
    fun semicolon => other.2 (semicolon ▸ listed.2)

theorem plain_of_binaryOperator {allowIn : Bool} {token : Token} {symbol : String}
    (here : c.peek? = some token) (operator : binaryOperator? allowIn token = some symbol)
    : c.Plain := by
  cases kind : token.kind
    <;> simp only [binaryOperator?, kind, Option.ite_none_right_eq_some, false_and,
      Bool.false_eq_true] at operator
  case identifier => exact Cursor.plain_of_kind here (by rw [kind]; rfl)
  case punctuator =>
    refine Cursor.plain_of_punctuator here kind (fun text => ?_) fun text => ?_
    all_goals
      rw [text] at operator
      cases operator.1

include deeper

theorem operation_held {allowIn : Bool} {found : Round (String × Expression)}
    (sound : c.Sound origin) (run : scope.operation allowIn c = .ok (found, c'))
    : (found = .stop ∧ Held origin c [] c' ∧ c.lastStop = c'.lastStop)
      ∨ ∃ symbol value, found = .more (symbol, value) ∧ Held origin c value.shown c'
          ∧ c.offset < c'.lastStop ∧ value.span.stop = c'.lastStop := by
  simp only [operation, bind_ok, get_ok] at run
  obtain ⟨_, m, again, _, _, ⟨rfl, rfl⟩, run⟩ := run
  have first := rereadAt_held sound again
  cases operator : m.peek?.bind (binaryOperator? allowIn) with
  | none =>
      simp only [operator] at run
      obtain ⟨rfl, rfl⟩ := pure_ok.mp run
      rcases rereadAt_ok.mp again with ⟨-, rfl⟩ | ⟨-, rfl⟩
      · exact .inl ⟨rfl, first, (Cursor.reread_lastStop _).symm⟩
      · exact .inl ⟨rfl, first, rfl⟩
  | some symbol =>
      simp only [operator, bind_ok, advance_ok, start_ok, pure_ok] at run
      obtain ⟨_, _, rfl, _, _, ⟨token, there, rfl, rfl⟩, value, _, read, rfl, rfl⟩ := run
      obtain ⟨operand, here, operator⟩ := Option.bind_eq_some_iff.mp operator
      have second := first.sound.advance_held (plain_of_binaryOperator here operator)
      have third := deeper.unary second.sound read
      refine .inr ⟨_, _, rfl, first.trans (second.trans third.toHeld), ?_, third.stop⟩
      have onward := first.offset_le
      have taken := (first.sound.offset_lt_advance here).1
      have reach := third.lastStop_le
      omega

theorem operation_covers (allowIn : Bool)
    : Round.Covers origin (scope.operation allowIn) fun item => item.2.shown where
  covered := by
    intro c c' found sound run
    rcases operation_held deeper sound run with ⟨rfl, held, -⟩ | ⟨_, _, rfl, held, -⟩
    all_goals exact held.toCovered
  rises := by
    intro c c' found sound run goesOn
    rcases operation_held deeper sound run with ⟨rfl, -⟩ | ⟨_, _, rfl, -, rises, -⟩
    · cases goesOn
    · exact rises

theorem binary_read {allowIn : Bool} {e : Expression} (sound : c.Sound origin)
    (run : scope.binary allowIn c = .ok (e, c'))
    : ExpressionRead origin c e c' := by
  simp only [binary, bind_ok, start_ok, pure_ok] at run
  obtain ⟨_, _, ⟨token, here, rfl, rfl⟩, first, m, read, others, _, repeated, rfl, rfl⟩ := run
  have before := deeper.unary sound read
  have rounds := rounds_ok (operation_covers deeper allowIn) before.sound repeated
  clear repeated read
  rw [OperatorTree.ofChain]
  change ExpressionRead origin c (OperatorTree.operand first).toExpression m at before
  generalize OperatorTree.operand first = tree at before
  -- The tree so far is read up to where the rounds go on.
  induction rounds generalizing tree with
  | stop run =>
      rcases operation_held deeper before.sound run with ⟨-, held, stop⟩ | ⟨_, _, equal, -⟩
      · exact ⟨before.skip held, before.start, before.stop.trans stop,
          Nat.lt_of_lt_of_le before.rises held.lastStop_le⟩
      · cases equal
  | last run =>
      rcases operation_held deeper before.sound run with ⟨equal, -⟩ | ⟨_, _, equal, -⟩ <;> cases equal
  | more run rest ih =>
      rcases operation_held deeper before.sound run with ⟨equal, -⟩ | ⟨symbol, value, equal, held, -, stop⟩
      · cases equal
      · obtain rfl := Round.more.inj equal
        exact ih (tree.push symbol value) (before.push held stop)

theorem conditional_read {allowIn : Bool} {e : Expression} (sound : c.Sound origin)
    (run : scope.conditional allowIn c = .ok (e, c'))
    : ExpressionRead origin c e c' := by
  simp only [conditional, bind_ok, start_ok, ite_ok, spanFrom_ok, pure_ok, eat_ok] at run
  obtain ⟨_, _, ⟨token, here, rfl, rfl⟩, test, m, tested, _, m₁, question, run⟩ := run
  have first := binary_read deeper sound tested
  rcases run with ⟨taken, consequent, m₂, read, _, m₃, colon, alternate, m₄, last, _, _, ⟨rfl, rfl⟩,
    rfl, rfl⟩ | ⟨untaken, rfl, rfl⟩
  · have second := (eat_held (by decide) first.sound (eat_ok.mpr question)).1
    have third := assignment_read deeper second.sound read
    have fourth := (expect_held (by decide) third.sound colon).1
    have fifth := assignment_read deeper fourth.sound last
    have begins := Cursor.Sound.offset_eq here
    have rises := fifth.rises
    have onward := first.offset_le.trans (second.offset_le.trans (third.offset_le.trans fourth.offset_le))
    have held := (first.skip second).trans (third.skip fourth)
    refine ⟨held.trans fifth.toHeld, begins.symm, ?_, by omega⟩
    simp only [Expression.span]
    omega
  · rcases question with ⟨taken, -⟩ | ⟨-, -, rfl⟩
    · exact absurd taken untaken
    · exact first

-----------------------------------------------------------------------------------------
-- Functions and assignments
-----------------------------------------------------------------------------------------

theorem arrowParams_held {params : List Expression} (sound : c.Sound origin)
    (run : scope.arrowParams c = .ok (params, c'))
    : Held origin c (shownExpressions params) c' := by
  simp only [arrowParams, bind_ok, get_ok, ite_ok, map_ok] at run
  obtain ⟨_, _, ⟨rfl, rfl⟩, ⟨-, listed⟩ | ⟨-, name, named, rfl⟩⟩ := run
  · exact (arguments_held deeper sound listed).1
  · obtain ⟨read, -⟩ := identifier_read sound named
    simpa only [List.singleton, shownExpressions, List.append_nil] using read.toHeld

/-- An arrow function is the only construct that gets past an arrow. -/
theorem arrow_read {allowIn isAsync : Bool} {e : Expression} (sound : c.Sound origin)
    (other : ¬c.atArrow) (plain : isAsync → c.Plain)
    (run : scope.arrow allowIn isAsync c = .ok (e, c'))
    : ExpressionRead origin c e c' := by
  simp only [arrow, bind_ok, start_ok, get_ok, ite_ok, markArrowEnd_ok, spanFrom_ok, pure_ok,
    expect_ok] at run
  obtain ⟨_, _, ⟨token, here, rfl, rfl⟩, _, m, async, params, m₁, listed, _, _, ⟨arrow, rfl⟩, _, _,
    ⟨rfl, rfl⟩, run⟩ := run
  have first := advanceIf_held sound async plain
  have second := first.trans (arrowParams_held deeper first.sound listed)
  have third := second.past_arrow other arrow
  have begins := Cursor.Sound.offset_eq here
  have onward := second.offset_le
  obtain ⟨found, there, -⟩ := Cursor.sees_eq_true.mp arrow
  have taken := (second.sound.offset_lt_advance there).1
  rcases run with ⟨-, body, m₂, enclosed, _, _, rfl, _, _, ⟨rfl, rfl⟩, rfl, rfl⟩
    | ⟨-, body, m₂, read, _, _, ⟨rfl, rfl⟩, rfl, rfl⟩
  · obtain ⟨fourth, -⟩ := functionBody_held deeper third.sound enclosed
    have reach := fourth.lastStop_le
    refine ⟨(third.trans fourth).skip fourth.sound.markArrowEnd_held, begins.symm, ?_, ?_⟩
    · simp only [Expression.span]
      omega
    · simp only
      omega
  · have deeper' : (scope.inFunction false).deeper.Covers origin := deeper
    have fourth := assignment_read deeper' third.sound read
    have reach := fourth.lastStop_le
    refine ⟨third.trans fourth.toHeld, begins.symm, ?_, by omega⟩
    simp only [Expression.span]
    omega

theorem yielded_read {allowIn : Bool} {e : Expression} (sound : c.Sound origin)
    (plain : c.Plain) (run : scope.yielded allowIn c = .ok (e, c'))
    : ExpressionRead origin c e c' := by
  simp only [yielded, bind_ok, start_ok, get_ok, advance_ok, spanFrom_ok, pure_ok] at run
  obtain ⟨_, _, ⟨token, here, rfl, rfl⟩, _, _, rfl, delegates, m, star, _, _, ⟨rfl, rfl⟩, operand, m₁,
    given, _, _, ⟨rfl, rfl⟩, rfl, rfl⟩ := run
  have first := sound.advance_held plain
  have second : Held origin c.advance [] m := by
    simp only [delegation, bind_ok, get_ok, ite_ok, pure_ok] at star
    obtain ⟨_, _, ⟨rfl, rfl⟩, ⟨-, -, rfl⟩ | ⟨-, eaten⟩⟩ := star
    · exact .refl first.sound
    · exact (eat_held (by decide) first.sound eaten).1
  have begins := Cursor.Sound.offset_eq here
  have taken := (sound.offset_lt_advance here).1
  rcases onlyIf_ok.mp given with ⟨-, value, read, rfl⟩ | ⟨-, rfl, rfl⟩
  · have third := assignment_read deeper second.sound read
    have reach := second.lastStop_le.trans third.lastStop_le
    refine ⟨first.trans (second.trans third.toHeld), begins.symm, ?_, by omega⟩
    simp only [Expression.span]
    omega
  · have reach := second.lastStop_le
    refine ⟨first.trans second, begins.symm, ?_, by omega⟩
    simp only [Expression.span]
    omega

omit deeper in
/-- Where an arrow function begins there is no arrow. -/
theorem not_atArrow_of_arrowAt (arrow : c.arrowAt 0)
    : ¬c.atArrow := by
  intro atArrow
  simp only [Cursor.atArrow, Option.any_eq_true, Token.isPunctuator, Bool.and_eq_true,
    beq_iff_eq] at atArrow
  obtain ⟨token, here, kind, text⟩ := atArrow
  have first := Cursor.peekAt?_zero here (by rw [Token.isSignificant, kind]; rfl)
  simp [Cursor.arrowAt, first, kind, text, Token.isPunctuator] at arrow

theorem assignmentNode_read {allowIn : Bool} {e : Expression} (sound : c.Sound origin)
    (run : scope.assignmentNode allowIn c = .ok (e, c'))
    : ExpressionRead origin c e c' := by
  simp only [assignmentNode, bind_ok, get_ok, ite_ok, start_ok, advance_ok, spanFrom_ok, pure_ok]
    at run
  obtain ⟨_, _, ⟨rfl, rfl⟩, ⟨arrow, run⟩ | ⟨-, ⟨yields, run⟩ | ⟨-, run⟩⟩⟩ := run
  · have plain (async : c.sees "async" && !c.newlineAt 1 && c.arrowAt 1) : c.Plain := by
      simp only [Bool.and_eq_true] at async
      exact Cursor.plain_of_sees (by decide) async.1.1
    refine arrow_read deeper sound ?_ plain run
    rcases Bool.or_eq_true_iff.mp arrow with async | arrow
    · exact (plain async).noArrow
    · exact not_atArrow_of_arrowAt arrow
  · simp only [Bool.and_eq_true] at yields
    exact yielded_read deeper sound (Cursor.plain_of_sees (by decide) yields.2) run
  · obtain ⟨_, _, ⟨token, here, rfl, rfl⟩, target, m, read, _, _, ⟨rfl, rfl⟩, run⟩ := run
    have first := conditional_read deeper sound read
    rcases run with ⟨assigns, _, _, rfl, value, m₁, given, _, _, ⟨rfl, rfl⟩, rfl, rfl⟩ | ⟨-, rfl, rfl⟩
    · simp only [Option.any_eq_true] at assigns
      obtain ⟨operator, there, assigns⟩ := assigns
      have second := first.sound.advance_held (plain_of_isPunctuatorIn (by decide) there assigns)
      have third := assignment_read deeper second.sound given
      have begins := Cursor.Sound.offset_eq here
      have rises := first.rises
      have reach := second.lastStop_le.trans third.lastStop_le
      refine ⟨first.toHeld.trans (second.trans third.toHeld), begins.symm, ?_, by omega⟩
      simp only [Expression.span]
      omega
    · exact first

end Scope

end ScriptStyle.Grammar
