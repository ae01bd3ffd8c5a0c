import ScriptStyle.Proofs.Grammar.Coverage.Expression
import ScriptStyle.Proofs.Grammar.Coverage.LoopHead
import ScriptStyle.Proofs.Grammar.Coverage.Module

/-!
Coverage by statements. A statement that may end with a semicolon encloses its parts, so that
no two of them end at one token, and a loop with three parts in its head has two semicolons there.
-/

namespace ScriptStyle.Grammar

open ScriptStyle.Grammar.Parser

variable {origin : Scanner} {c m c' : Cursor} {scope : Scope}

namespace Scope

variable (deeper : scope.deeper.Covers origin)

include deeper

-----------------------------------------------------------------------------------------
-- Declarations
-----------------------------------------------------------------------------------------

theorem bindingTarget_read {target : Expression} (sound : c.Sound origin)
    (run : scope.bindingTarget c = .ok (target, c'))
    : ExpressionRead origin c target c' := by
  simp only [bindingTarget, bind_ok, get_ok, ite_ok] at run
  obtain ⟨_, _, ⟨rfl, rfl⟩, ⟨-, run⟩ | ⟨-, run⟩⟩ := run
  · exact operand_read deeper sound run
  · exact (identifier_read sound run).1

theorem declarator_held {allowIn : Bool} {entry : Declarator} (sound : c.Sound origin)
    (run : scope.declarator allowIn c = .ok (entry, c'))
    : Held origin c (entry.target.shown ++ shownOptional entry.init) c'
      ∧ entry.target.span.start = c.offset ∧ entry.stop = c'.lastStop := by
  simp only [declarator, bind_ok, pure_ok] at run
  obtain ⟨target, m, named, init, _, given, rfl, rfl⟩ := run
  have first := bindingTarget_read deeper sound named
  rcases after?_ok.mp given with ⟨here, value, read, rfl⟩ | ⟨-, rfl, rfl⟩
  · have second := first.sound.advance_held (Cursor.plain_of_sees (by decide) here)
    have third := assignment_read deeper second.sound read
    exact ⟨first.toHeld.trans (second.trans third.toHeld), first.start, third.stop⟩
  · exact ⟨first.toHeld.trans (.refl first.sound), first.start, first.stop⟩

/-- Declarations are enclosed, and the last of them ends where they end. -/
theorem declaration_held {allowIn : Bool} {kind : VariableKind} {declarators : List Declarator}
    (sound : c.Sound origin) (plain : c.Plain)
    (run : scope.declaration allowIn c = .ok ((kind, declarators), c'))
    : Held origin c [] c.advance ∧ Held origin c.advance (shownDeclarators declarators) c'
      ∧ (ForHead.declaration kind declarators).span = ⟨c.advance.offset, c'.lastStop⟩
      ∧ ∀ value, declarators.getLast?.bind Declarator.init = some value
        → value.span.stop = c'.lastStop := by
  simp only [declaration, bind_ok, get_ok, advance_ok, pure_ok, Prod.mk.injEq] at run
  obtain ⟨_, _, ⟨rfl, rfl⟩, _, _, rfl, declarators, _, separated, ⟨-, rfl⟩, rfl⟩ := run
  have first := sound.advance_held plain
  have second := commaSeparated_held (fun sound run => (declarator_held deeper sound run).1)
    first.sound separated
  obtain ⟨head, begins, start⟩ := commaSeparated_first
    (fun sound run => ⟨(declarator_held deeper sound run).1, (declarator_held deeper sound run).2.1⟩)
    first.sound separated
  obtain ⟨last, found, stop⟩ := commaSeparated_last
    (fun sound run => ⟨(declarator_held deeper sound run).1, (declarator_held deeper sound run).2.2⟩)
    first.sound separated
  rw [shownDeclarators_eq]
  refine ⟨first, second, ?_, fun value init => ?_⟩
  · simp only [ForHead.span, begins, found, Option.map_some, Option.getD_some, start, stop]
  · rw [found] at init
    rw [← stop, Declarator.stop, show last.init = some value from init]

/-- A literal that stands alone as a statement is the same literal at another site. -/
theorem expressionStatement_read {beginning : Cursor} {form : Placement → Statement}
    (sound : c.Sound origin) (run : scope.expressionStatement c = .ok (form, c'))
    : StatementFormRead origin beginning c form c' := by
  simp only [expressionStatement, bind_ok, pure_ok] at run
  obtain ⟨value, m, read, _, m₁, ends, rfl, rfl⟩ := run
  have first := expression_read deeper sound read
  have finish (part : Shown) : EndsFrom part m m₁ := .of_consumeSemicolon ends
  refine ⟨fun placement _ stops enclosing => ?_, fun _ => rfl,
    Nat.lt_of_lt_of_le first.rises ((finish (.stray default 0)).lastStop_le first.sound)⟩
  obtain ⟨parts, shown, same⟩ := Statement.shown_expression value placement enclosing
  rw [shown]
  refine (first.toHeld.congr same).terminate sound first.rises (finish _) rfl stops ?_
  rintro _ ⟨⟩
  exact first.stop

section Word

variable {beginning : Cursor} {form : Placement → Statement} (sound : c.Sound origin) (plain : c.Plain)

include sound plain

-----------------------------------------------------------------------------------------
-- Branches and loops
-----------------------------------------------------------------------------------------

theorem conditionalStatement_read (run : scope.conditionalStatement c = .ok (form, c'))
    : StatementFormRead origin beginning c form c' := by
  simp only [conditionalStatement, bind_ok, advance_ok, pure_ok] at run
  obtain ⟨_, _, rfl, test, m₁, tested, consequent, m₂, read, alternate, m₃, given, rfl, rfl⟩ := run
  have first := sound.advance_held plain
  have second := (parenthesized_held deeper first.sound tested).1
  have third := statement_read deeper second.sound read
  have last : Covered origin m₂ (shownAlternate alternate) m₃ := by
    rcases after?_ok.mp given with ⟨here, body, read, rfl⟩ | ⟨-, rfl, rfl⟩
    · have before := (third.covered .statement).sound.advance_held
        (Cursor.plain_of_sees (by decide) here)
      exact before.toCovered.trans ((statement_read deeper before.sound read).covered _)
    · exact .refl (third.covered .statement).sound
  have whole := first.toCovered.trans
    ((second.toCovered.trans (third.covered .statement)).trans last)
  have onward := first.offset_le.trans second.offset_le
  have rises := third.rises
  have reach := last.lastStop_le
  exact whole.form (by omega) (fun _ _ => ⟨rfl, rfl, rfl⟩) (fun _ => rfl)
    fun _ _ => by rw [Statement.shown]; rfl

theorem whileStatement_read (run : scope.whileStatement c = .ok (form, c'))
    : StatementFormRead origin beginning c form c' := by
  simp only [whileStatement, bind_ok, advance_ok, pure_ok] at run
  obtain ⟨_, _, rfl, test, m₁, tested, body, m₂, read, rfl, rfl⟩ := run
  have first := sound.advance_held plain
  have second := (parenthesized_held deeper first.sound tested).1
  have third := statement_read deeper second.sound read
  have whole := first.toCovered.trans (second.toCovered.trans (third.covered .statement))
  have onward := first.offset_le.trans second.offset_le
  exact whole.form (Nat.lt_of_le_of_lt onward third.rises) (fun _ _ => ⟨rfl, rfl, rfl⟩)
    (fun _ => rfl) fun _ _ => by rw [Statement.shown]; rfl

theorem withStatement_read (run : scope.withStatement c = .ok (form, c'))
    : StatementFormRead origin beginning c form c' := by
  simp only [withStatement, bind_ok, advance_ok, pure_ok] at run
  obtain ⟨_, _, rfl, object, m₁, tested, body, m₂, read, rfl, rfl⟩ := run
  have first := sound.advance_held plain
  have second := (parenthesized_held deeper first.sound tested).1
  have third := statement_read deeper second.sound read
  have whole := first.toCovered.trans (second.toCovered.trans (third.covered .statement))
  have onward := first.offset_le.trans second.offset_le
  exact whole.form (Nat.lt_of_le_of_lt onward third.rises) (fun _ _ => ⟨rfl, rfl, rfl⟩)
    (fun _ => rfl) fun _ _ => by rw [Statement.shown]; rfl

/-- The body of a loop with its test at the end is shown after the test. -/
theorem doWhileStatement_read (run : scope.doWhileStatement c = .ok (form, c'))
    : StatementFormRead origin beginning c form c' := by
  simp only [doWhileStatement, bind_ok, advance_ok, pure_ok] at run
  obtain ⟨_, _, rfl, body, m₁, read, _, m₂, repeats, test, m₃, tested, _, m₄, semicolon, rfl, rfl⟩ := run
  have first := sound.advance_held plain
  have second := (statement_read deeper first.sound read).covered .statement
  obtain ⟨keyword, rfl⟩ := expect_ok.mp repeats
  obtain ⟨found, there, -⟩ := Cursor.sees_eq_true.mp keyword
  have third := second.close there (Cursor.plain_of_sees (by decide) keyword)
  obtain ⟨fourth, taken⟩ := parenthesized_held deeper third.sound tested
  have whole : Held origin c (body.shown .statement ++ test.shown) m₃ :=
    first.trans (third.trans fourth)
  have onward := first.offset_le.trans third.offset_le
  refine (whole.perm List.perm_append_comm).terminatedForm sound (Nat.lt_of_le_of_lt onward taken)
    (fun placement enclosing => ?_) (fun _ _ => rfl) (by rintro _ _ _ ⟨⟩) fun _ _ => by rw [Statement.shown]
  rcases eat_ok.mp semicolon with ⟨-, own, rfl⟩ | ⟨-, absent, rfl⟩
  · exact .inl ⟨own, rfl⟩
  · exact .inr ⟨absent, .inl rfl, rfl⟩

variable {token : Token} (here : c.peek? = some token)

include here

theorem labeledStatement_read (colon : c.seesNth 1 ":")
    (run : scope.labeledStatement c = .ok (form, c'))
    : StatementFormRead origin beginning c form c' := by
  simp only [labeledStatement, bind_ok, advance_ok, pure_ok] at run
  obtain ⟨_, _, rfl, _, _, rfl, body, m, read, rfl, rfl⟩ := run
  rw [Cursor.seesNth, Cursor.peekAt?_one here (sound.significant token here)] at colon
  have first := sound.advance_held plain
  have second := first.trans (first.sound.advance_held (Cursor.plain_of_sees (by decide) colon))
  have third := statement_read deeper second.sound read
  exact (second.toCovered.trans (third.covered .statement)).form
    (Nat.lt_of_le_of_lt second.offset_le third.rises) (fun _ _ => ⟨rfl, rfl, rfl⟩)
    (fun _ => rfl) fun _ _ => by rw [Statement.shown]; rfl

theorem variableStatement_read (run : scope.variableStatement c = .ok (form, c'))
    : StatementFormRead origin beginning c form c' := by
  simp only [variableStatement, bind_ok, pure_ok] at run
  obtain ⟨⟨kind, declarators⟩, m, declared, _, m₁, ends, rfl, rfl⟩ := run
  obtain ⟨first, second, -, tail⟩ := declaration_held deeper sound plain declared
  have rises := Nat.lt_of_lt_of_le (sound.offset_lt_advance here).1 second.lastStop_le
  exact (first.trans second).terminatedForm sound rises (fun _ _ => .of_consumeSemicolon ends)
    (fun _ _ => rfl) (fun _ _ => tail) fun _ _ => by rw [Statement.shown]; rfl

-----------------------------------------------------------------------------------------
-- Jumps
-----------------------------------------------------------------------------------------

theorem returnStatement_read (run : scope.returnStatement c = .ok (form, c'))
    : StatementFormRead origin beginning c form c' := by
  simp only [returnStatement, bind_ok, get_ok, advance_ok, pure_ok] at run
  obtain ⟨_, _, rfl, _, _, ⟨rfl, rfl⟩, value, m, given, _, m₁, ends, rfl, rfl⟩ := run
  have first := sound.advance_held plain
  obtain ⟨second, tail⟩ : Held origin c.advance (shownOptional value) m
      ∧ ∀ known, value = some known → known.span.stop = m.lastStop := by
    rcases onlyIf_ok.mp given with ⟨-, known, read, rfl⟩ | ⟨-, rfl, rfl⟩
    · have read := expression_read deeper first.sound read
      refine ⟨read.toHeld, ?_⟩
      rintro _ ⟨⟩
      exact read.stop
    · exact ⟨.refl first.sound, (by simp)⟩
  have rises := Nat.lt_of_lt_of_le (sound.offset_lt_advance here).1 second.lastStop_le
  exact (first.trans second).terminatedForm sound rises (fun _ _ => .of_consumeSemicolon ends)
    (fun _ _ => rfl) (fun _ _ => tail) fun _ _ => by rw [Statement.shown]; rfl

theorem throwStatement_read (run : scope.throwStatement c = .ok (form, c'))
    : StatementFormRead origin beginning c form c' := by
  simp only [throwStatement, bind_ok, advance_ok, pure_ok] at run
  obtain ⟨_, _, rfl, value, m, read, _, m₁, ends, rfl, rfl⟩ := run
  have first := sound.advance_held plain
  have second := expression_read deeper first.sound read
  have rises := Nat.lt_of_lt_of_le (sound.offset_lt_advance here).1 second.lastStop_le
  refine (first.trans second.toHeld).terminatedForm sound rises
    (fun _ _ => .of_consumeSemicolon ends) (fun _ _ => rfl) ?_ fun _ _ => by rw [Statement.shown]; rfl
  rintro _ _ _ ⟨⟩
  exact second.stop

omit deeper in
/-- A jump shows nothing but itself. -/
theorem jumpStatement_read {jump : Placement → Statement} (run : jumpStatement jump c = .ok (form, c'))
    (shown
      : ∀ placement enclosing,
        (jump placement).shown enclosing = [.statement (jump placement) enclosing])
    (ending
      : ∀ placement enclosing,
        (Shown.statement (jump placement) enclosing).ending? = some placement.toExtent)
    (tail : ∀ placement enclosing, (Shown.statement (jump placement) enclosing).tail? = none)
    : StatementFormRead origin beginning c form c' := by
  simp only [jumpStatement, bind_ok, get_ok, advance_ok, pure_ok] at run
  obtain ⟨_, _, rfl, _, _, ⟨rfl, rfl⟩, _, m, labeled, _, m₁, ends, rfl, rfl⟩ := run
  have first := sound.advance_held plain
  have second := advanceIf_held first.sound labeled fun holds => by
    simp only [Bool.and_eq_true, Cursor.atKind, Option.any_eq_true, beq_iff_eq] at holds
    obtain ⟨⟨token, here, kind⟩, -⟩ := holds
    exact Cursor.plain_of_kind here (by rw [kind]; rfl)
  have rises := Nat.lt_of_lt_of_le (sound.offset_lt_advance here).1 second.lastStop_le
  exact (first.trans second).terminatedForm sound rises (fun _ _ => .of_consumeSemicolon ends) ending
    (fun _ _ _ known => by rw [tail] at known; cases known) shown

omit deeper in
theorem debuggerStatement_read {a : Unit} (ends : consumeSemicolon c.advance = .ok (a, c'))
    : StatementFormRead origin beginning c .debugger c' :=
  (sound.advance_held plain).terminatedForm sound (sound.offset_lt_advance here).1
    (fun _ _ => .of_consumeSemicolon ends) (fun _ _ => rfl) (by rintro _ _ _ ⟨⟩)
    fun _ _ => by rw [Statement.shown]

end Word

-----------------------------------------------------------------------------------------
-- Loops with a head
-----------------------------------------------------------------------------------------

theorem forInit_read {init : Option ForHead} (sound : c.Sound origin)
    (run : scope.forInit c = .ok (init, c'))
    : ∃ m, Held origin c [] m ∧ HeadPartRead origin m (init.map ForHead.span, shownInit init) c' := by
  simp only [forInit, bind_ok, get_ok, ite_ok, pure_ok] at run
  obtain ⟨_, _, ⟨rfl, rfl⟩, ⟨-, rfl, rfl⟩ | ⟨-, ⟨word, ⟨kind, entries⟩, m, declared, rfl, rfl⟩
    | ⟨-, value, m, read, rfl, rfl⟩⟩⟩ := run
  · exact ⟨c, .refl sound, .refl sound, (by simp), fun _ => rfl⟩
  · have plain : c.Plain := by
      simp only [Bool.or_eq_true, Bool.and_eq_true] at word
      rcases word with (var | const) | ⟨isLet, -⟩
      · exact Cursor.plain_of_sees (by decide) var
      · exact Cursor.plain_of_sees (by decide) const
      · exact Cursor.plain_of_sees (by decide) isLet
    obtain ⟨first, second, span, -⟩ := declaration_held deeper sound plain declared
    refine ⟨c.advance, first, second, ?_, (by simp)⟩
    rintro _ ⟨⟩
    exact span
  · have read := expression_read deeper sound read
    refine ⟨c, .refl sound, read.toHeld, ?_, (by simp)⟩
    rintro _ ⟨⟩
    exact read.span

theorem expressionUnless_read {closing : String} {value : Option Expression} (sound : c.Sound origin)
    (run : scope.expressionUnless closing c = .ok (value, c'))
    : HeadPartRead origin c (value.map Expression.span, shownOptional value) c' := by
  simp only [expressionUnless, bind_ok, get_ok] at run
  obtain ⟨_, _, ⟨rfl, rfl⟩, run⟩ := run
  rcases onlyIf_ok.mp run with ⟨-, value, read, rfl⟩ | ⟨-, rfl, rfl⟩
  · have read := expression_read deeper sound read
    refine ⟨read.toHeld, ?_, (by simp)⟩
    rintro _ ⟨⟩
    exact read.span
  · exact ⟨.refl sound, (by simp), fun _ => rfl⟩

theorem forLoopRest_read {start : Cursor} {init : Option ForHead} {form : Placement → Statement}
    (sound : c.Sound origin) (opens : Held origin c [] start)
    (head : HeadPartRead origin start (init.map ForHead.span, shownInit init) m)
    (run : scope.forLoopRest init m = .ok (form, c'))
    : StatementFormRead origin c c form c' := by
  simp only [forLoopRest, bind_ok, pure_ok, expect_ok] at run
  obtain ⟨_, _, ⟨stops, rfl⟩, test, m₁, tested, _, _, ⟨stops', rfl⟩, update, m₂, updated, _, m₃, closes,
    body, m₄, read, rfl, rfl⟩ := run
  obtain ⟨semicolon, here, -, stray⟩ := head.sound.semicolon_covered stops
  have testRead := expressionUnless_read deeper stray.sound tested
  obtain ⟨semicolon', here', -, stray'⟩ := testRead.sound.semicolon_covered stops'
  have updateRead := expressionUnless_read deeper stray'.sound updated
  have closed : expect ")" m₂ = .ok ((), m₃) := expect_ok.mpr closes
  have close := (expect_held (by decide) updateRead.sound closed).1
  have inner := statement_read deeper close.sound read
  have loop : LoopHeadRead origin c start m m₁ m₂ m₃ semicolon semicolon' _ _ _ :=
    ⟨sound, opens, head, ⟨stray, here⟩, testRead, ⟨stray', here'⟩, updateRead, close⟩
  have whole := loop.covered.trans (inner.covered .statement)
  refine ⟨fun placement begins _ enclosing => ?_, fun _ => rfl,
    Nat.lt_of_le_of_lt loop.covered.offset_le inner.rises⟩
  -- The loop takes the place of the semicolons that are none of its parts'.
  have separators {tokens : List Token} (complete : m₄.Completes origin tokens)
      : (Shown.separators tokens (.statement (.forLoop init test update body placement) enclosing)).Perm
          [m.index, m₁.index] := by
    have distinct : m.index ≠ m₁.index := by
      have onward := head.sound.index_lt_advance here
      have later := testRead.index_le
      omega
    refine (List.perm_ext_iff_of_nodup (List.nodup_range.filter _) (by simpa using distinct)).mpr
      fun index => ?_
    have known := loop.mem_separators index
      (complete.of_ledger (inner.covered .statement).toLedger)
    simp only [List.mem_cons, List.not_mem_nil, or_false, ← known, List.mem_filter, List.mem_range,
      inner.first, begins.1]
    simp only [Bool.and_eq_true, decide_eq_true_eq, Option.any_eq_true, Bool.not_eq_true',
      List.any_eq_false, List.mem_append, Option.mem_toList, or_assoc, Bool.not_eq_true]
    exact and_left_comm
  rw [Statement.shown]
  refine ⟨Ledger.exchange [.stray semicolon m.index, .stray semicolon' m₁.index]
    (by simpa using whole.toLedger) rfl rfl rfl ?_ (fun tokens => separators) ?_, whole.stuck⟩
  · rintro _ ⟨⟩
  · intro tokens complete
    constructor
    case separators => exact fun _ => (separators complete).length_eq
    case template => rintro _ _ ⟨⟩
    case ending => rintro _ ⟨⟩
    case empty => rintro _ ⟨⟩

theorem forEachRest_read {beginning : Cursor} {left : ForHead} {isOf : Bool}
    {form : Placement → Statement}
    (sound : m.Sound origin) (before : Held origin c left.shown m)
    (run : scope.forEachRest left isOf m = .ok (form, c'))
    : StatementFormRead origin beginning c form c' := by
  simp only [forEachRest, forEachObject, bind_ok, ite_ok, pure_ok] at run
  obtain ⟨right, m₁, object, _, m₂, closes, body, m₃, read, rfl, rfl⟩ := run
  have first : Held origin m right.shown m₁ := by
    rcases object with ⟨-, object⟩ | ⟨-, object⟩
    · exact (assignment_read deeper sound object).toHeld
    · exact (expression_read deeper sound object).toHeld
  have second := (expect_held (by decide) first.sound closes).1
  have third := statement_read deeper second.sound read
  have held := before.trans (first.skip second)
  exact (held.toCovered.trans (third.covered .statement)).form
    (Nat.lt_of_le_of_lt held.offset_le third.rises) (fun _ _ => ⟨rfl, rfl, rfl⟩) (fun _ => rfl)
    fun _ _ => by rw [Statement.shown]

theorem forStatement_read {form : Placement → Statement} (sound : c.Sound origin)
    (plain : c.Plain) (run : scope.forStatement c = .ok (form, c'))
    : StatementFormRead origin c c form c' := by
  simp only [forStatement, bind_ok, advance_ok] at run
  obtain ⟨_, _, rfl, _, m₁, await, _, m₂, opens, init, m₃, head, run⟩ := run
  have first := sound.advance_held plain
  have second := first.trans (eat_held (by decide) first.sound await).1
  have third := second.trans (expect_held (by decide) second.sound opens).1
  obtain ⟨start, keyword, part⟩ := forInit_read deeper third.sound head
  have fourth := third.trans keyword
  cases init with
  | none => exact forLoopRest_read deeper sound fourth part run
  | some left =>
      simp only [bind_ok, get_ok, ite_ok, advance_ok] at run
      obtain ⟨_, _, ⟨rfl, rfl⟩, ⟨word, _, _, rfl, run⟩ | ⟨-, run⟩⟩ := run
      · have separator : m₃.Plain := by
          simp only [Bool.or_eq_true] at word
          rcases word with word | word <;> exact Cursor.plain_of_sees (by decide) word
        have fifth := (fourth.trans part.toHeld).skip (part.sound.advance_held separator)
        exact forEachRest_read deeper fifth.sound fifth run
      · exact forLoopRest_read deeper sound fourth part run

-----------------------------------------------------------------------------------------
-- Guarded blocks and switches
-----------------------------------------------------------------------------------------

theorem catchClause_held {clause : CatchClause} (sound : c.Sound origin)
    (run : scope.catchClause c = .ok (clause, c'))
    : Held origin c (shownHandler (some clause)) c' := by
  simp only [catchClause, bind_ok, pure_ok] at run
  obtain ⟨param, m, given, body, m₁, enclosed, rfl, rfl⟩ := run
  have first : Held origin c (shownOptional param) m := by
    rw [shownOptional_eq]
    refine after?_held (by decide) (fun sound run => ?_) sound given
    simp only [bind_ok, pure_ok] at run
    obtain ⟨_, _, named, _, _, closes, rfl, rfl⟩ := run
    have first := bindingTarget_read deeper sound named
    exact first.skip (expect_held (by decide) first.sound closes).1
  exact first.trans (block_held deeper first.sound enclosed).1

theorem tryStatement_read {beginning : Cursor} {form : Placement → Statement} (sound : c.Sound origin)
    (plain : c.Plain) (run : scope.tryStatement c = .ok (form, c'))
    : StatementFormRead origin beginning c form c' := by
  simp only [tryStatement, bind_ok, advance_ok, pure_ok] at run
  obtain ⟨_, _, rfl, block, m, enclosed, handler, m₁, handled, finalizer, m₂, finished, rfl, rfl⟩ := run
  have first := sound.advance_held plain
  obtain ⟨second, rises⟩ := block_held deeper first.sound enclosed
  have third : Held origin m (shownHandler handler) m₁ := by
    have held := after?_held (by decide) (fun sound run => catchClause_held deeper sound run) second.sound handled
    cases handler <;> exact held
  have fourth : Held origin m₁ (shownFinalizer finalizer) m₂ := by
    have held := after?_held (by decide) (fun sound run => (block_held deeper sound run).1) third.sound
      finished
    cases finalizer <;> exact held
  have onward := first.offset_le
  have reach := third.lastStop_le.trans fourth.lastStop_le
  exact (first.trans ((second.trans third).trans fourth)).toCovered.form (by omega)
    (fun _ _ => ⟨rfl, rfl, rfl⟩) (fun _ => rfl) fun _ _ => by rw [Statement.shown]; rfl

theorem caseTest_held {test : Option Expression} (sound : c.Sound origin)
    (run : scope.caseTest c = .ok (test, c'))
    : Held origin c (shownOptional test) c' ∧ c.offset < c'.lastStop := by
  simp only [caseTest, bind_ok, ite_ok, map_ok, pure_ok] at run
  obtain ⟨_, m, word, ⟨taken, value, read, rfl⟩ | ⟨-, _, _, other, rfl, rfl⟩⟩ := run
  · obtain ⟨first, rises⟩ := eat_held (by decide) sound word
    have second := expression_read deeper first.sound read
    exact ⟨first.trans second.toHeld, Nat.lt_of_lt_of_le (rises taken) second.lastStop_le⟩
  · have first := (eat_held (by decide) sound word).1
    obtain ⟨second, rises⟩ := expect_held (by decide) first.sound other
    exact ⟨first.trans second, Nat.lt_of_le_of_lt first.offset_le rises⟩

theorem clauseRound_covers
    : Round.Covers origin scope.clauseRound (Statement.shown .switchCase) := by
  have cases {c c' : Cursor} {found : Round Statement} (sound : c.Sound origin)
      (run : scope.clauseRound c = .ok (found, c')) :
      (found = .stop ∧ c = c') ∨ ∃ statement, found = .more statement
        ∧ StatementRead origin c statement c' := by
    simp only [clauseRound, bind_ok, get_ok, ite_ok, pure_ok, atClose_ok, map_ok] at run
    obtain ⟨_, _, ⟨rfl, rfl⟩, ⟨-, rfl, rfl⟩ | ⟨-, _, _, ⟨_, -, -, rfl⟩, ⟨-, rfl, rfl⟩
      | ⟨-, statement, read, rfl⟩⟩⟩ := run
    · exact .inl ⟨rfl, rfl⟩
    · exact .inl ⟨rfl, rfl⟩
    · exact .inr ⟨statement, rfl, statement_read deeper sound read⟩
  constructor
  · intro c c' found sound run
    rcases cases sound run with ⟨rfl, rfl⟩ | ⟨statement, rfl, read⟩
    · exact .refl sound
    · exact read.covered _
  · intro c c' found sound run goesOn
    rcases cases sound run with ⟨rfl, -⟩ | ⟨statement, rfl, read⟩
    · cases goesOn
    · exact read.rises

theorem switchCase_covered {clause : SwitchCase} (sound : c.Sound origin)
    (run : scope.switchCase c = .ok (clause, c'))
    : Covered origin c (shownOptional clause.test ++ shownStatements .switchCase clause.body) c'
      ∧ c.offset < c'.lastStop := by
  simp only [switchCase, bind_ok, pure_ok] at run
  obtain ⟨test, m, tested, _, m₁, colon, body, m₂, repeated, rfl, rfl⟩ := run
  obtain ⟨first, rises⟩ := caseTest_held deeper sound tested
  have second := (expect_held (by decide) first.sound colon).1
  have covers := clauseRound_covers deeper
  have third := (rounds_ok covers second.sound repeated).covered covers second.sound
  rw [← shownStatements_eq] at third
  exact ⟨(first.skip second).toCovered.trans third,
    Nat.lt_of_lt_of_le rises (second.lastStop_le.trans third.lastStop_le)⟩

theorem switchStatement_read {beginning : Cursor} {form : Placement → Statement}
    (sound : c.Sound origin) (plain : c.Plain) (run : scope.switchStatement c = .ok (form, c'))
    : StatementFormRead origin beginning c form c' := by
  simp only [switchStatement, bind_ok, advance_ok, pure_ok] at run
  obtain ⟨_, _, rfl, discriminant, m, read, _, m₁, opens, cases, m₂, listed, rfl, rfl⟩ := run
  have first := sound.advance_held plain
  have second := (parenthesized_held deeper first.sound read).1
  have third := (expect_held (by decide) second.sound opens).1
  obtain ⟨fourth, rises⟩ := itemsUntil_held (by decide)
    (fun sound run => (switchCase_covered deeper sound run).1)
    (fun sound run => (switchCase_covered deeper sound run).2) third.sound listed
  rw [← shownCases_eq] at fourth
  have held := first.trans ((second.skip third).trans fourth)
  have onward := first.offset_le.trans (second.offset_le.trans third.offset_le)
  exact held.toCovered.form (Nat.lt_of_le_of_lt onward rises) (fun _ _ => ⟨rfl, rfl, rfl⟩)
    (fun _ => rfl) fun _ _ => by rw [Statement.shown]; rfl

-----------------------------------------------------------------------------------------
-- Exports
-----------------------------------------------------------------------------------------

section Form

variable {beginning : Cursor} {form : Placement → Statement} (sound : c.Sound origin)

include sound

theorem exportDefault_read (run : scope.exportDefault c = .ok (form, c'))
    : StatementFormRead origin beginning c form c' := by
  simp only [exportDefault, bind_ok, get_ok, ite_ok, pure_ok] at run
  obtain ⟨_, _, ⟨rfl, rfl⟩, ⟨-, declaration, m, read, rfl, rfl⟩ | ⟨-, value, m, read, _, m₁, ends, rfl,
    rfl⟩⟩ := run
  · have first := statement_read deeper sound read
    exact (first.covered .statement).form first.rises (fun _ _ => ⟨rfl, rfl, rfl⟩)
      (fun _ => rfl) fun _ _ => by rw [Statement.shown]
  · have first := assignment_read deeper sound read
    refine first.toHeld.terminatedForm sound first.rises (fun _ _ => .of_consumeSemicolon ends)
      (fun _ _ => rfl) ?_ fun _ _ => by rw [Statement.shown]
    rintro _ _ _ ⟨⟩
    exact first.stop

theorem exportStatement_read (plain : c.Plain) (run : scope.exportStatement c = .ok (form, c'))
    : StatementFormRead origin beginning c form c' := by
  simp only [exportStatement, bind_ok, get_ok, advance_ok, ite_ok, pure_ok] at run
  obtain ⟨_, _, rfl, _, m, star, run⟩ := run
  have first := sound.advance_held plain
  have second := first.trans (eat_held (by decide) first.sound star).1
  rcases run with ⟨-, run⟩ | ⟨-, _, m₁, default, run⟩
  · exact (exportAll_read second.sound run).after second
  · have third := second.trans (eat_held (by decide) second.sound default).1
    rcases run with ⟨-, run⟩ | ⟨-, _, _, ⟨rfl, rfl⟩, ⟨-, run⟩ | ⟨-, declaration, _, read, rfl, rfl⟩⟩
    · exact (exportDefault_read deeper third.sound run).after third
    · exact (exportList_read third.sound run).after third
    · have fourth := statement_read deeper third.sound read
      exact (third.toCovered.trans (fourth.covered .statement)).form
        (Nat.lt_of_le_of_lt third.offset_le fourth.rises) (fun _ _ => ⟨rfl, rfl, rfl⟩)
        (fun _ => rfl) fun _ _ => by rw [Statement.shown]; rfl

-----------------------------------------------------------------------------------------
-- All statements
-----------------------------------------------------------------------------------------

theorem functionStatement_read (run : (Statement.function <$> scope.functionDef) c = .ok (form, c'))
    : StatementFormRead origin beginning c form c' := by
  obtain ⟨definition, defined, rfl⟩ := map_ok.mp run
  obtain ⟨held, rises⟩ := functionDef_held deeper sound defined
  exact held.toCovered.form rises (fun _ _ => ⟨rfl, rfl, rfl⟩) (fun _ => rfl)
    fun _ _ => by rw [Statement.shown]

theorem classStatement_read (run : (Statement.class <$> scope.classDef) c = .ok (form, c'))
    : StatementFormRead origin beginning c form c' := by
  obtain ⟨definition, defined, rfl⟩ := map_ok.mp run
  obtain ⟨held, rises⟩ := classDef_held deeper sound defined
  exact held.toCovered.form rises (fun _ _ => ⟨rfl, rfl, rfl⟩) (fun _ => rfl)
    fun _ _ => by rw [Statement.shown]

variable {token : Token} (here : c.peek? = some token) (word : token.kind = .identifier)

include here word

theorem plainWordStatement_read (run : scope.plainWordStatement c c = .ok (form, c'))
    : StatementFormRead origin beginning c form c' := by
  rcases ite_ok.mp run with ⟨colon, run⟩ | ⟨-, run⟩
  · exact labeledStatement_read deeper sound (Cursor.plain_of_kind here (by rw [word]; rfl)) here
      colon run
  · exact expressionStatement_read deeper sound run

theorem wordStatement_read {text : String} (run : scope.wordStatement text c = .ok (form, c'))
    : StatementFormRead origin c c form c' := by
  have plain : c.Plain := Cursor.plain_of_kind here (by rw [word]; rfl)
  simp only [wordStatement, bind_ok, get_ok] at run
  obtain ⟨_, _, ⟨rfl, rfl⟩, run⟩ := run
  split at run
  case h_1 | h_2 => exact variableStatement_read deeper sound plain here run
  case h_3 =>
    rcases ite_ok.mp run with ⟨-, run⟩ | ⟨-, run⟩
    · exact variableStatement_read deeper sound plain here run
    · exact plainWordStatement_read deeper sound here word run
  case h_4 => exact functionStatement_read deeper sound run
  case h_5 =>
    rcases ite_ok.mp run with ⟨-, run⟩ | ⟨-, run⟩
    · exact functionStatement_read deeper sound run
    · exact plainWordStatement_read deeper sound here word run
  case h_6 => exact classStatement_read deeper sound run
  case h_7 => exact conditionalStatement_read deeper sound plain run
  case h_8 => exact forStatement_read deeper sound plain run
  case h_9 => exact whileStatement_read deeper sound plain run
  case h_10 => exact doWhileStatement_read deeper sound plain run
  case h_11 => exact returnStatement_read deeper sound plain here run
  case h_12 | h_13 =>
    refine jumpStatement_read sound plain here run (fun _ _ => ?_) (fun _ _ => rfl) fun _ _ => rfl
    rw [Statement.shown]
  case h_14 => exact throwStatement_read deeper sound plain here run
  case h_15 =>
    simp only [bind_ok, advance_ok, pure_ok] at run
    obtain ⟨_, _, rfl, _, m, ends, rfl, rfl⟩ := run
    exact debuggerStatement_read sound plain here ends
  case h_16 => exact tryStatement_read deeper sound plain run
  case h_17 => exact switchStatement_read deeper sound plain run
  case h_18 => exact withStatement_read deeper sound plain run
  case h_19 =>
    rcases ite_ok.mp run with ⟨-, run⟩ | ⟨-, run⟩
    · exact plainWordStatement_read deeper sound here word run
    · exact importFrom_read sound here word run
  case h_20 => exact exportStatement_read deeper sound plain run
  case h_21 => exact plainWordStatement_read deeper sound here word run

end Form

theorem statementForm_read {form : Placement → Statement} (sound : c.Sound origin)
    (run : scope.statementForm c = .ok (form, c'))
    : StatementFormRead origin c c form c' := by
  simp only [statementForm, bind_ok, get_ok] at run
  obtain ⟨_, _, ⟨rfl, rfl⟩, run⟩ := run
  cases here : c.peek? with
  | none => simp only [here, endOfInput_ok] at run
  | some token =>
      simp only [here, ite_ok, map_ok, bind_ok, advance_ok, pure_ok] at run
      rcases run with ⟨-, block, enclosed, rfl⟩ | ⟨-, ⟨semicolon, _, _, rfl, rfl, rfl⟩ | ⟨-, ⟨word, run⟩
        | ⟨-, run⟩⟩⟩
      · obtain ⟨held, rises⟩ := block_held deeper sound enclosed
        exact held.toCovered.form rises (fun _ _ => ⟨rfl, rfl, rfl⟩) (fun _ => rfl)
          fun _ _ => by rw [Statement.shown]
      · have sees : c.sees ";" := by
          simp only [Token.isPunctuator, Bool.and_eq_true] at semicolon
          simp [Cursor.sees, here, Token.isTerminal, semicolon]
        obtain ⟨found, there, -, stray⟩ := sound.semicolon_covered sees
        refine ⟨fun placement begins stops enclosing => ?_, fun _ => rfl,
          (sound.offset_lt_advance here).1⟩
        rw [Statement.shown]
        exact stray.empty there begins stops rfl
      · exact wordStatement_read deeper sound here (beq_iff_eq.mp word) run
      · exact expressionStatement_read deeper sound run

theorem statementNode_read {statement : Statement} (sound : c.Sound origin)
    (run : scope.statementNode c = .ok (statement, c'))
    : StatementRead origin c statement c' := by
  simp only [statementNode, bind_ok, get_ok, start_ok, extentFrom_ok, pure_ok] at run
  obtain ⟨_, _, ⟨rfl, rfl⟩, _, _, ⟨token, here, rfl, rfl⟩, form, m, run, _, _, ⟨rfl, rfl⟩, rfl, rfl⟩ :=
    run
  have read := statementForm_read deeper sound run
  have begins := Cursor.Sound.offset_eq here
  have rises := read.rises
  refine ⟨fun enclosing => read.covered _ ⟨rfl, begins.symm⟩ ⟨rfl, ?_⟩ enclosing,
    by rw [read.extent], rises⟩
  simp only
  omega

end Scope

end ScriptStyle.Grammar
