import ScriptStyle.Proofs.Grammar.Coverage.Operand

/-!
Coverage by what follows an operand without an operator, and by the operators around it.
-/

namespace ScriptStyle.Grammar

open ScriptStyle.Grammar.Parser

variable {origin : Scanner} {c m c' : Cursor} {scope : Scope}

namespace Scope

/-- The shown parts of a suffix. -/
def Suffix.shown : Suffix → List Shown
  | member _ => []
  | index key => key.shown
  | call arguments => shownExpressions arguments
  | tagged literal => literal.shown .expression

theorem Suffix.apply_shown (object : Expression) (suffix : Suffix) (stop : Nat)
    : (suffix.apply object stop).shown = object.shown ++ suffix.shown := by
  cases suffix <;> simp only [Suffix.apply, Expression.shown, Suffix.shown, List.append_nil]

theorem Suffix.apply_span (object : Expression) (suffix : Suffix) (stop : Nat)
    : (suffix.apply object stop).span = ⟨object.span.start, stop⟩ := by
  cases suffix <;> rfl

-----------------------------------------------------------------------------------------
-- Suffixes
-----------------------------------------------------------------------------------------

theorem memberName_held {name : Span} (sound : c.Sound origin)
    (run : memberName c = .ok (name, c'))
    : Held origin c [] c' := by
  simp only [memberName, bind_ok, get_ok] at run
  obtain ⟨_, _, ⟨rfl, rfl⟩, run⟩ := run
  cases here : c.peek? with
  | none => simp only [here, unexpected_ok] at run
  | some token =>
      simp only [here, bind_ok, ite_ok, advance_ok, pure_ok, unexpected_ok, and_false, or_false,
        Bool.or_eq_true, beq_iff_eq] at run
      obtain ⟨kind, _, _, rfl, -, rfl⟩ := run
      exact sound.advance_held
        (Cursor.plain_of_kind here (by rcases kind with kind | kind <;> rw [kind] <;> rfl))

end Scope

/-- An operand is read as far as a suffix of it reaches. -/
theorem ExpressionRead.suffix {object : Expression} {suffix : Scope.Suffix}
    (operand : ExpressionRead origin c object m) (held : Held origin m suffix.shown c')
    : ExpressionRead origin c (suffix.apply object c'.lastStop) c' := by
  refine ⟨?_, ?_, ?_, Nat.lt_of_lt_of_le operand.rises held.lastStop_le⟩
  · rw [Scope.Suffix.apply_shown]
    exact operand.toHeld.trans held
  · rw [Scope.Suffix.apply_span]
    exact operand.start
  · rw [Scope.Suffix.apply_span]

namespace Scope

variable (deeper : scope.deeper.Covers origin)

include deeper

theorem indexRest_held {suffix : Suffix} (sound : c.Sound origin)
    (run : scope.indexRest c = .ok (suffix, c'))
    : Held origin c suffix.shown c' := by
  simp only [indexRest, bind_ok, pure_ok] at run
  obtain ⟨key, m, read, _, _, closes, rfl, rfl⟩ := run
  have first := expression_read deeper sound read
  exact first.skip (expect_held (by decide) first.sound closes).1

/-- A suffix takes tokens. -/
theorem suffix?_held {allowCall : Bool} {suffix : Option Suffix} (sound : c.Sound origin)
    (run : scope.suffix? allowCall c = .ok (suffix, c'))
    : (suffix = none ∧ c' = c)
      ∨ ∃ found, suffix = some found ∧ Held origin c found.shown c' ∧ c.offset < c'.lastStop := by
  simp only [suffix?, bind_ok, get_ok] at run
  obtain ⟨_, _, ⟨rfl, rfl⟩, run⟩ := run
  cases here : c.peek? with
  | none =>
      simp only [here, pure_ok] at run
      obtain ⟨rfl, rfl⟩ := run
      exact .inl ⟨rfl, rfl⟩
  | some token =>
      have taken := (sound.offset_lt_advance here).1
      cases kind : token.kind <;> simp only [here, kind] at run
      case template | templateHead =>
        simp only [bind_ok, pure_ok] at run
        obtain ⟨literal, _, read, rfl, rfl⟩ := run
        obtain ⟨held, -, rises⟩ := templateLiteral_held deeper sound here (by simp [kind]) read .expression
        exact .inr ⟨_, rfl, held, rises⟩
      case punctuator =>
        have plain (other : token.text ≠ "=>" ∧ token.text ≠ ";") : c.Plain :=
          Cursor.plain_of_punctuator here kind other.1 other.2
        generalize text : token.text = symbol at run plain
        split at run
        case h_1 =>
          simp only [bind_ok, advance_ok, pure_ok] at run
          obtain ⟨_, _, rfl, name, _, named, rfl, rfl⟩ := run
          have first := sound.advance_held (plain (by decide))
          have second := memberName_held first.sound named
          exact .inr ⟨_, rfl, first.trans second, Nat.lt_of_lt_of_le taken second.lastStop_le⟩
        case h_2 =>
          simp only [bind_ok, advance_ok, map_ok] at run
          obtain ⟨_, _, rfl, found, rest, rfl⟩ := run
          have first := sound.advance_held (plain (by decide))
          have second := indexRest_held deeper first.sound rest
          exact .inr ⟨_, rfl, first.trans second, Nat.lt_of_lt_of_le taken second.lastStop_le⟩
        case h_3 =>
          simp only [ite_ok, bind_ok, pure_ok] at run
          rcases run with ⟨-, arguments, _, listed, rfl, rfl⟩ | ⟨-, rfl, rfl⟩
          · obtain ⟨held, rises⟩ := arguments_held deeper sound listed
            exact .inr ⟨_, rfl, held, rises⟩
          · exact .inl ⟨rfl, rfl⟩
        case h_4 =>
          simp only [ite_ok, bind_ok, get_ok, advance_ok, map_ok, pure_ok] at run
          rcases run with ⟨-, _, _, rfl, _, _, ⟨rfl, rfl⟩, run⟩ | ⟨-, rfl, rfl⟩
          · have first := sound.advance_held (plain (by decide))
            rcases run with ⟨-, arguments, _, listed, rfl, rfl⟩ | ⟨-, _, m, opens, run⟩
            · obtain ⟨second, -⟩ := arguments_held deeper first.sound listed
              exact .inr ⟨_, rfl, first.trans second, Nat.lt_of_lt_of_le taken second.lastStop_le⟩
            · have second := first.trans (eat_held (by decide) first.sound opens).1
              have reach := Nat.lt_of_lt_of_le taken (eat_held (by decide) first.sound opens).1.lastStop_le
              rcases run with ⟨-, found, rest, rfl⟩ | ⟨-, name, _, named, rfl, rfl⟩
              · have third := indexRest_held deeper second.sound rest
                exact .inr ⟨_, rfl, second.trans third, Nat.lt_of_lt_of_le reach third.lastStop_le⟩
              · have third := memberName_held second.sound named
                exact .inr ⟨_, rfl, second.trans third, Nat.lt_of_lt_of_le reach third.lastStop_le⟩
          · exact .inl ⟨rfl, rfl⟩
        case h_5 =>
          obtain ⟨rfl, rfl⟩ := pure_ok.mp run
          exact .inl ⟨rfl, rfl⟩
      all_goals
        obtain ⟨rfl, rfl⟩ := pure_ok.mp run
        exact .inl ⟨rfl, rfl⟩

theorem suffixRound_held {allowCall : Bool} {found : Round (Suffix × Nat)} (sound : c.Sound origin)
    (run : scope.suffixRound allowCall c = .ok (found, c'))
    : (found = .stop ∧ c' = c)
      ∨ ∃ suffix, found = .more (suffix, c'.lastStop) ∧ Held origin c suffix.shown c'
          ∧ c.offset < c'.lastStop := by
  simp only [suffixRound, bind_ok] at run
  obtain ⟨suffix, m, tried, run⟩ := run
  rcases suffix?_held deeper sound tried with ⟨rfl, rfl⟩ | ⟨taken, rfl, held, rises⟩
  · obtain ⟨rfl, rfl⟩ := pure_ok.mp run
    exact .inl ⟨rfl, rfl⟩
  · simp only [bind_ok, get_ok, pure_ok] at run
    obtain ⟨_, _, ⟨rfl, rfl⟩, rfl, rfl⟩ := run
    exact .inr ⟨taken, rfl, held, rises⟩

theorem suffixRound_covers (allowCall : Bool)
    : Round.Covers origin (scope.suffixRound allowCall) fun item => item.1.shown where
  covered := by
    intro c c' found sound run
    rcases suffixRound_held deeper sound run with ⟨rfl, rfl⟩ | ⟨suffix, rfl, held, -⟩
    · exact .refl sound
    · exact held.toCovered
  rises := by
    intro c c' found sound run goesOn
    rcases suffixRound_held deeper sound run with ⟨rfl, -⟩ | ⟨suffix, rfl, -, rises⟩
    · cases goesOn
    · exact rises

/-- An operand with all its suffixes is read as far as it reaches. -/
theorem withSuffixes_read {allowCall : Bool} {object e : Expression}
    (operand : ExpressionRead origin c object m) (run : scope.withSuffixes allowCall object m = .ok (e, c'))
    : ExpressionRead origin c e c' := by
  simp only [withSuffixes, bind_ok, pure_ok] at run
  obtain ⟨suffixes, _, repeated, rfl, rfl⟩ := run
  have rounds := rounds_ok (suffixRound_covers deeper allowCall) operand.sound repeated
  clear repeated
  induction rounds generalizing object with
  | stop run =>
      rcases suffixRound_held deeper operand.sound run with ⟨-, rfl⟩ | ⟨_, equal, -⟩
      · exact operand
      · cases equal
  | last run =>
      rcases suffixRound_held deeper operand.sound run with ⟨equal, -⟩ | ⟨_, equal, -⟩ <;> cases equal
  | more run rest ih =>
      rcases suffixRound_held deeper operand.sound run with ⟨equal, -⟩ | ⟨suffix, equal, held, rises⟩
      · cases equal
      · obtain rfl := Round.more.inj equal
        exact ih (operand.suffix held)

-----------------------------------------------------------------------------------------
-- Constructions
-----------------------------------------------------------------------------------------

theorem callee_read {e : Expression} (sound : c.Sound origin)
    (run : scope.callee c = .ok (e, c'))
    : ExpressionRead origin c e c' := by
  simp only [callee, bind_ok, start_ok, get_ok, ite_ok] at run
  obtain ⟨_, _, ⟨token, here, rfl, rfl⟩, _, _, ⟨rfl, rfl⟩, run⟩ := run
  rcases run with ⟨new, object, m, constructed, run⟩ | ⟨-, object, m, read, run⟩
  · have plain := Cursor.plain_of_sees (by decide) new
    exact withSuffixes_read deeper (deeper.construct sound plain constructed) run
  · exact withSuffixes_read deeper (operand_read deeper sound read) run

theorem constructArguments_held {items : List Expression} (sound : c.Sound origin)
    (run : scope.constructArguments c = .ok (items, c'))
    : Held origin c (shownExpressions items) c' := by
  simp only [constructArguments, bind_ok, get_ok, ite_ok, pure_ok] at run
  obtain ⟨_, _, ⟨rfl, rfl⟩, ⟨-, run⟩ | ⟨-, rfl, rfl⟩⟩ := run
  · exact (arguments_held deeper sound run).1
  · exact .refl sound

theorem construct_read {e : Expression} (sound : c.Sound origin) (plain : c.Plain)
    (run : scope.construct c = .ok (e, c'))
    : ExpressionRead origin c e c' := by
  simp only [construct, bind_ok, start_ok, advance_ok, ite_ok, spanFrom_ok, pure_ok] at run
  obtain ⟨_, _, ⟨token, here, rfl, rfl⟩, _, _, rfl, dot, m, eaten, run⟩ := run
  have first := (sound.advance_held plain).trans (eat_held (by decide) (sound.advance_held plain).sound eaten).1
  have begins := Cursor.Sound.offset_eq here
  have taken : c.offset < m.lastStop := Nat.lt_of_lt_of_le (sound.offset_lt_advance here).1
    (eat_held (by decide) (sound.advance_held plain).sound eaten).1.lastStop_le
  rcases run with ⟨-, _, _, named, _, _, ⟨rfl, rfl⟩, rfl, rfl⟩
    | ⟨-, object, m₁, read, items, m₂, listed, _, _, ⟨rfl, rfl⟩, rfl, rfl⟩
  · have second := identifier_held first.sound named
    have reach := second.lastStop_le
    refine ⟨first.trans second, begins.symm, ?_, by omega⟩
    simp only [Expression.span]
    omega
  · have second := callee_read deeper first.sound read
    have third := constructArguments_held deeper second.sound listed
    have reach := second.lastStop_le.trans third.lastStop_le
    refine ⟨first.trans (second.toHeld.trans third), begins.symm, ?_, by omega⟩
    simp only [Expression.span]
    omega

/-- An operand with all its suffixes is read as far as it reaches. -/
theorem leftHandSide_read {e : Expression} (sound : c.Sound origin)
    (run : scope.leftHandSide c = .ok (e, c'))
    : ExpressionRead origin c e c' := by
  simp only [leftHandSide, bind_ok, start_ok, get_ok, ite_ok] at run
  obtain ⟨_, _, ⟨token, here, rfl, rfl⟩, _, _, ⟨rfl, rfl⟩, run⟩ := run
  rcases run with ⟨new, object, m, constructed, run⟩ | ⟨-, object, m, read, run⟩
  · have plain := Cursor.plain_of_sees (by decide) new
    exact withSuffixes_read deeper (construct_read deeper sound plain constructed) run
  · exact withSuffixes_read deeper (operand_read deeper sound read) run

-----------------------------------------------------------------------------------------
-- Operators with one operand
-----------------------------------------------------------------------------------------

omit deeper in
/-- An operator in front of or behind one operand is plain. -/
theorem plain_of_isUpdateOperator {token : Token} (here : c.peek? = some token)
    (update : isUpdateOperator token)
    : c.Plain := by
  simp only [isUpdateOperator, Token.isPunctuatorIn, Bool.and_eq_true, beq_iff_eq,
    List.contains_iff_mem, List.mem_cons, List.not_mem_nil, or_false] at update
  obtain ⟨kind, text⟩ := update
  exact Cursor.plain_of_punctuator here kind (by rcases text with text | text <;> simp [text])
    (by rcases text with text | text <;> simp [text])

omit deeper in
theorem plain_of_isUnaryOperator {token : Token} (here : c.peek? = some token)
    (unary : isUnaryOperator c token)
    : c.Plain := by
  cases kind : token.kind <;> simp only [isUnaryOperator, kind] at unary
  case identifier => exact Cursor.plain_of_kind here (by rw [kind]; rfl)
  case punctuator =>
    simp only [List.contains_iff_mem, List.mem_cons, List.not_mem_nil, or_false] at unary
    exact Cursor.plain_of_punctuator here kind
      (by rcases unary with text | text | text | text <;> simp [text])
      (by rcases unary with text | text | text | text <;> simp [text])
  all_goals cases unary

theorem postfixed_read {e : Expression} (sound : c.Sound origin)
    (run : scope.postfixed c = .ok (e, c'))
    : ExpressionRead origin c e c' := by
  simp only [postfixed, bind_ok, start_ok, get_ok, ite_ok, advance_ok, spanFrom_ok, pure_ok] at run
  obtain ⟨_, _, ⟨token, here, rfl, rfl⟩, operand, m, read, _, _, ⟨rfl, rfl⟩, run⟩ := run
  have first := leftHandSide_read deeper sound read
  rcases run with ⟨update, _, _, rfl, _, _, ⟨rfl, rfl⟩, rfl, rfl⟩ | ⟨-, rfl, rfl⟩
  · simp only [Option.any_eq_true, Bool.and_eq_true] at update
    obtain ⟨operator, there, update, -⟩ := update
    have second := first.sound.advance_held (plain_of_isUpdateOperator there update)
    have begins := Cursor.Sound.offset_eq here
    have reach := second.lastStop_le
    have rises := first.rises
    refine ⟨first.skip second, begins.symm, ?_, by omega⟩
    simp only [Expression.span]
    omega
  · exact first

theorem unaryNode_read {e : Expression} (sound : c.Sound origin)
    (run : scope.unaryNode c = .ok (e, c'))
    : ExpressionRead origin c e c' := by
  simp only [unaryNode, bind_ok, start_ok, get_ok] at run
  obtain ⟨_, _, ⟨token, here, rfl, rfl⟩, _, _, ⟨rfl, rfl⟩, run⟩ := run
  have begins := Cursor.Sound.offset_eq here
  have taken := (sound.offset_lt_advance here).1
  simp only [here, ite_ok, bind_ok, advance_ok, spanFrom_ok, pure_ok] at run
  rcases run with ⟨update, _, _, rfl, operand, m, read, _, _, ⟨rfl, rfl⟩, rfl, rfl⟩
    | ⟨-, ⟨unary, _, _, rfl, operand, m, read, _, _, ⟨rfl, rfl⟩, rfl, rfl⟩ | ⟨-, run⟩⟩
  · have first := sound.advance_held (plain_of_isUpdateOperator here update)
    have second := deeper.unary first.sound read
    have reach := second.lastStop_le
    refine ⟨first.trans second.toHeld, begins.symm, ?_, by omega⟩
    simp only [Expression.span]
    omega
  · have first := sound.advance_held (plain_of_isUnaryOperator here unary)
    have second := deeper.unary first.sound read
    have reach := second.lastStop_le
    refine ⟨first.trans second.toHeld, begins.symm, ?_, by omega⟩
    simp only [Expression.span]
    omega
  · exact postfixed_read deeper sound run

end Scope

end ScriptStyle.Grammar
