import ScriptStyle.Proofs.Grammar.Coverage.Statement
import ScriptStyle.Proofs.Grammar.Layout.Expression
import ScriptStyle.Proofs.Grammar.Layout.Module

/-!
How statements are laid out, with any placement around what they consist of, and with their own.
-/

namespace ScriptStyle.Grammar

open ScriptStyle.Grammar.Parser

variable {origin : Scanner} {c m c' : Cursor} {scope : Scope} {form : Placement → Statement}

namespace Scope

variable (deeper : scope.deeper.Lays origin)

include deeper

-----------------------------------------------------------------------------------------
-- Declarations
-----------------------------------------------------------------------------------------

theorem bindingTarget_laid {target : Expression} (sound : c.Sound origin)
    (run : scope.bindingTarget c = .ok (target, c'))
    : Laid origin c [.expression target] c' := by
  simp only [bindingTarget, bind_ok, get_ok, ite_ok] at run
  obtain ⟨_, _, ⟨rfl, rfl⟩, ⟨-, run⟩ | ⟨-, run⟩⟩ := run
  · exact operand_laid deeper sound run
  · exact identifier_laid sound run

theorem declarator_laid {allowIn : Bool} {entry : Declarator} (sound : c.Sound origin)
    (run : scope.declarator allowIn c = .ok (entry, c'))
    : Laid origin c [.declarator entry] c' := by
  simp only [declarator, bind_ok, pure_ok] at run
  obtain ⟨target, m, named, init, _, given, rfl, rfl⟩ := run
  have first := bindingTarget_laid deeper sound named
  have inner : Laid origin c (Node.declarator ⟨target, init⟩).children _ :=
    first.trans (after?_laid (assignment_laid deeper) (by decide) first.sound given)
  exact inner.group rfl

theorem declaration_laid {allowIn : Bool} {kind : VariableKind} {declarators : List Declarator}
    (sound : c.Sound origin) (unbraced : c.Unbraced)
    (run : scope.declaration allowIn c = .ok ((kind, declarators), c'))
    : Laid origin c (declarators.map .declarator) c' := by
  simp only [declaration, bind_ok, get_ok, advance_ok, pure_ok, Prod.mk.injEq] at run
  obtain ⟨_, _, ⟨rfl, rfl⟩, _, _, rfl, declarators, _, separated, ⟨-, rfl⟩, rfl⟩ := run
  have first := sound.advance_laid unbraced
  exact (commaSeparated_laid
    (fun sound run => (declarator_held deeper.toCovers sound run).1.toCovered)
    (declarator_laid deeper) first.sound separated).after first

theorem expressionStatement_laid (sound : c.Sound origin)
    (run : scope.expressionStatement c = .ok (form, c'))
    : ∀ placement, Laid origin c (Node.ofStatement (form placement)) c' := by
  simp only [expressionStatement, bind_ok, pure_ok] at run
  obtain ⟨value, m, read, _, m₁, ends, rfl, rfl⟩ := run
  have first := expression_laid deeper sound read
  exact fun _ => first.skip (consumeSemicolon_laid first.sound ends)

section Word

variable (sound : c.Sound origin) (unbraced : c.Unbraced)

include sound unbraced

-----------------------------------------------------------------------------------------
-- Branches and loops
-----------------------------------------------------------------------------------------

theorem conditionalStatement_laid (run : scope.conditionalStatement c = .ok (form, c'))
    : ∀ placement, Laid origin c (Node.ofStatement (form placement)) c' := by
  simp only [conditionalStatement, bind_ok, advance_ok, pure_ok] at run
  obtain ⟨_, _, rfl, test, m₁, tested, consequent, m₂, read, alternate, m₃, given, rfl, rfl⟩ := run
  have first := sound.advance_laid unbraced
  have second := (parenthesized_laid deeper first.sound tested).after first
  have third := second.trans (statement_laid deeper second.sound read).toLaid
  have last := after?_laid (fun sound run => (statement_laid deeper sound run).toLaid) (by decide)
    third.sound given
  exact fun _ => third.trans last

theorem whileStatement_laid (run : scope.whileStatement c = .ok (form, c'))
    : ∀ placement, Laid origin c (Node.ofStatement (form placement)) c' := by
  simp only [whileStatement, bind_ok, advance_ok, pure_ok] at run
  obtain ⟨_, _, rfl, test, m₁, tested, body, m₂, read, rfl, rfl⟩ := run
  have first := sound.advance_laid unbraced
  have second := (parenthesized_laid deeper first.sound tested).after first
  exact fun _ => second.trans (statement_laid deeper second.sound read).toLaid

theorem withStatement_laid (run : scope.withStatement c = .ok (form, c'))
    : ∀ placement, Laid origin c (Node.ofStatement (form placement)) c' := by
  simp only [withStatement, bind_ok, advance_ok, pure_ok] at run
  obtain ⟨_, _, rfl, object, m₁, tested, body, m₂, read, rfl, rfl⟩ := run
  have first := sound.advance_laid unbraced
  have second := (parenthesized_laid deeper first.sound tested).after first
  exact fun _ => second.trans (statement_laid deeper second.sound read).toLaid

/-- The body of a loop with its test at the end is kept behind the test. -/
theorem doWhileStatement_laid (run : scope.doWhileStatement c = .ok (form, c'))
    : ∀ placement, Laid origin c (Node.ofStatement (form placement)) c' := by
  simp only [doWhileStatement, bind_ok, advance_ok, pure_ok] at run
  obtain ⟨_, _, rfl, body, m₁, read, _, m₂, keyword, test, m₃, tested, _, m₄, semicolon, rfl, rfl⟩ :=
    run
  have first := sound.advance_laid unbraced
  have second := (statement_laid deeper first.sound read).toLaid.after first
  have third := second.skip (expect_laid (by decide) second.sound keyword)
  have fourth := third.trans (parenthesized_laid deeper third.sound tested)
  have fifth := fourth.skip (eat_laid (by decide) fourth.sound semicolon)
  exact fun _ => fifth.perm List.perm_append_comm

theorem labeledStatement_laid {token : Token} (here : c.peek? = some token) (colon : c.seesNth 1 ":")
    (run : scope.labeledStatement c = .ok (form, c'))
    : ∀ placement, Laid origin c (Node.ofStatement (form placement)) c' := by
  simp only [labeledStatement, bind_ok, advance_ok, pure_ok] at run
  obtain ⟨_, _, rfl, _, _, rfl, body, m, read, rfl, rfl⟩ := run
  rw [Cursor.seesNth, Cursor.peekAt?_one here (sound.significant token here)] at colon
  have first := sound.advance_laid unbraced
  have second := first.trans
    (first.sound.advance_laid (Cursor.unbraced_of_sees (by decide) colon))
  exact fun _ => (statement_laid deeper second.sound read).toLaid.after second

theorem variableStatement_laid (run : scope.variableStatement c = .ok (form, c'))
    : ∀ placement, Laid origin c (Node.ofStatement (form placement)) c' := by
  simp only [variableStatement, bind_ok, pure_ok] at run
  obtain ⟨⟨kind, declarators⟩, m, declared, _, m₁, ends, rfl, rfl⟩ := run
  have first := declaration_laid deeper sound unbraced declared
  exact fun _ => first.skip (consumeSemicolon_laid first.sound ends)

-----------------------------------------------------------------------------------------
-- Jumps
-----------------------------------------------------------------------------------------

theorem returnStatement_laid (run : scope.returnStatement c = .ok (form, c'))
    : ∀ placement, Laid origin c (Node.ofStatement (form placement)) c' := by
  simp only [returnStatement, bind_ok, get_ok, advance_ok, pure_ok] at run
  obtain ⟨_, _, rfl, _, _, ⟨rfl, rfl⟩, value, m, given, _, m₁, ends, rfl, rfl⟩ := run
  have first := sound.advance_laid unbraced
  have second := (onlyIf_laid (expression_laid deeper) first.sound given).after first
  exact fun _ => second.skip (consumeSemicolon_laid second.sound ends)

theorem throwStatement_laid (run : scope.throwStatement c = .ok (form, c'))
    : ∀ placement, Laid origin c (Node.ofStatement (form placement)) c' := by
  simp only [throwStatement, bind_ok, advance_ok, pure_ok] at run
  obtain ⟨_, _, rfl, value, m, read, _, m₁, ends, rfl, rfl⟩ := run
  have first := sound.advance_laid unbraced
  have second := (expression_laid deeper first.sound read).after first
  exact fun _ => second.skip (consumeSemicolon_laid second.sound ends)

omit deeper in
/-- A jump consists of nothing. -/
theorem jumpStatement_laid {jump : Placement → Statement} (run : jumpStatement jump c = .ok (form, c'))
    (childless : ∀ placement, Node.ofStatement (jump placement) = [])
    : ∀ placement, Laid origin c (Node.ofStatement (form placement)) c' := by
  simp only [jumpStatement, bind_ok, get_ok, advance_ok, pure_ok] at run
  obtain ⟨_, _, rfl, _, _, ⟨rfl, rfl⟩, _, m, labeled, _, m₁, ends, rfl, rfl⟩ := run
  have first := sound.advance_laid unbraced
  have second := first.trans (advanceIf_laid first.sound labeled fun holds => by
    simp only [Bool.and_eq_true, Cursor.atKind, Option.any_eq_true, beq_iff_eq] at holds
    obtain ⟨⟨token, here, kind⟩, -⟩ := holds
    exact Cursor.unbraced_of_kind here (by simp [kind]))
  intro placement
  rw [childless]
  exact second.trans (consumeSemicolon_laid second.sound ends)

-----------------------------------------------------------------------------------------
-- Guarded blocks and switches
-----------------------------------------------------------------------------------------

omit sound unbraced in
theorem catchClause_laid {clause : CatchClause} (sound : c.Sound origin)
    (run : scope.catchClause c = .ok (clause, c'))
    : Laid origin c [.catchClause clause] c' := by
  simp only [catchClause, bind_ok, pure_ok] at run
  obtain ⟨param, m, given, body, m₁, enclosed, rfl, rfl⟩ := run
  have first : Laid origin c (param.toList.map .expression) m := by
    refine after?_laid (fun sound run => ?_) (by decide) sound given
    simp only [bind_ok, pure_ok] at run
    obtain ⟨_, _, named, _, _, closes, rfl, rfl⟩ := run
    have first := bindingTarget_laid deeper sound named
    exact first.skip (expect_laid (by decide) first.sound closes)
  have inner : Laid origin c (Node.catchClause ⟨param, body⟩).children m₁ :=
    first.trans (block_laid deeper first.sound enclosed).1
  exact inner.group rfl

theorem tryStatement_laid (run : scope.tryStatement c = .ok (form, c'))
    : ∀ placement, Laid origin c (Node.ofStatement (form placement)) c' := by
  simp only [tryStatement, bind_ok, advance_ok, pure_ok] at run
  obtain ⟨_, _, rfl, block, m, enclosed, handler, m₁, handled, finalizer, m₂, finished, rfl, rfl⟩ := run
  have first := sound.advance_laid unbraced
  have second := (block_laid deeper first.sound enclosed).1.after first
  have third := after?_laid (catchClause_laid deeper) (by decide) second.sound handled
  have fourth := after?_laid (fun sound run => (block_laid deeper sound run).1) (by decide)
    third.sound finished
  exact fun _ => second.trans (third.trans fourth)

omit sound unbraced in
theorem caseTest_laid {test : Option Expression} (sound : c.Sound origin)
    (run : scope.caseTest c = .ok (test, c'))
    : Laid origin c (test.toList.map .expression) c' := by
  simp only [caseTest, bind_ok, ite_ok, map_ok, pure_ok] at run
  obtain ⟨_, m, word, run⟩ := run
  have first := eat_laid (by decide) sound word
  rcases run with ⟨-, value, read, rfl⟩ | ⟨-, _, _, other, rfl, rfl⟩
  · exact (expression_laid deeper first.sound read).after first
  · exact first.trans (expect_laid (by decide) first.sound other)

omit sound unbraced in
theorem clauseRound_laid {found : Round Statement} (sound : c.Sound origin)
    (run : scope.clauseRound c = .ok (found, c'))
    : Laid origin c (found.made fun statement => [.statement statement]) c' := by
  simp only [clauseRound, bind_ok, get_ok, ite_ok, pure_ok, atClose_ok, map_ok] at run
  obtain ⟨_, _, ⟨rfl, rfl⟩, ⟨-, rfl, rfl⟩ | ⟨-, _, _, ⟨_, -, -, rfl⟩, ⟨-, rfl, rfl⟩
    | ⟨-, statement, read, rfl⟩⟩⟩ := run
  · exact .refl sound
  · exact .refl sound
  · exact (statement_laid deeper sound read).toLaid

omit sound unbraced in
theorem switchCase_laid {clause : SwitchCase} (sound : c.Sound origin)
    (run : scope.switchCase c = .ok (clause, c'))
    : Laid origin c [.switchCase clause] c' := by
  simp only [switchCase, bind_ok, pure_ok] at run
  obtain ⟨test, m, tested, _, m₁, colon, body, m₂, repeated, rfl, rfl⟩ := run
  have first := caseTest_laid deeper sound tested
  have second := first.skip (expect_laid (by decide) first.sound colon)
  have rounds := rounds_ok (clauseRound_covers deeper.toCovers) second.sound repeated
  have third := rounds.laid (clauseRound_laid deeper) second.sound
  rw [← List.map_eq_flatMap] at third
  have inner : Laid origin c (Node.switchCase ⟨test, body⟩).children m₂ := second.trans third
  exact inner.group rfl

theorem switchStatement_laid (run : scope.switchStatement c = .ok (form, c'))
    : ∀ placement, Laid origin c (Node.ofStatement (form placement)) c' := by
  simp only [switchStatement, bind_ok, advance_ok, pure_ok, expect_ok] at run
  obtain ⟨_, _, rfl, discriminant, m, read, _, _, ⟨opens, rfl⟩, cases, m₂, listed, rfl, rfl⟩ := run
  have first := sound.advance_laid unbraced
  have second := (parenthesized_laid deeper first.sound read).after first
  obtain ⟨m', rounds, closes, rfl⟩ := itemsUntil_rounds
    (fun sound run => (switchCase_covered deeper.toCovers sound run).1)
    (fun sound run => (switchCase_covered deeper.toCovers sound run).2)
    (Moves.advance second.sound).sound listed
  have third := rounds.laid (unlessClosed_laid (more_laid (switchCase_laid deeper)))
    (Moves.advance second.sound).sound
  rw [← List.map_eq_flatMap] at third
  exact fun _ => second.trans (third.braced second.sound opens closes)

end Word

-----------------------------------------------------------------------------------------
-- Loops with a head
-----------------------------------------------------------------------------------------

theorem forInit_laid {init : Option ForHead} (sound : c.Sound origin)
    (run : scope.forInit c = .ok (init, c'))
    : Laid origin c (init.toList.map .forHead) c' := by
  simp only [forInit, bind_ok, get_ok, ite_ok, pure_ok] at run
  obtain ⟨_, _, ⟨rfl, rfl⟩, ⟨-, rfl, rfl⟩ | ⟨-, ⟨word, ⟨kind, entries⟩, m, declared, rfl, rfl⟩
    | ⟨-, value, m, read, rfl, rfl⟩⟩⟩ := run
  · exact .refl sound
  · have unbraced : c.Unbraced := by
      simp only [Bool.or_eq_true, Bool.and_eq_true] at word
      rcases word with (var | const) | ⟨isLet, -⟩
      · exact Cursor.unbraced_of_sees (by decide) var
      · exact Cursor.unbraced_of_sees (by decide) const
      · exact Cursor.unbraced_of_sees (by decide) isLet
    have inner : Laid origin c (Node.forHead (.declaration kind entries)).children m :=
      declaration_laid deeper sound unbraced declared
    exact inner.group rfl
  · have inner : Laid origin c (Node.forHead (.value value)).children m :=
      expression_laid deeper sound read
    exact inner.group rfl

theorem expressionUnless_laid {closing : String} {value : Option Expression} (sound : c.Sound origin)
    (run : scope.expressionUnless closing c = .ok (value, c'))
    : Laid origin c (value.toList.map .expression) c' := by
  simp only [expressionUnless, bind_ok, get_ok] at run
  obtain ⟨_, _, ⟨rfl, rfl⟩, run⟩ := run
  exact onlyIf_laid (expression_laid deeper) sound run

theorem forLoopRest_laid {init : Option ForHead} (head : Laid origin c (init.toList.map .forHead) m)
    (run : scope.forLoopRest init m = .ok (form, c'))
    : ∀ placement, Laid origin c (Node.ofStatement (form placement)) c' := by
  simp only [forLoopRest, bind_ok, pure_ok] at run
  obtain ⟨_, m₁, stops, test, m₂, tested, _, m₃, stops', update, m₄, updated, _, m₅, closes, body, m₆,
    read, rfl, rfl⟩ := run
  have first := head.skip (expect_laid (by decide) head.sound stops)
  have second := first.trans (expressionUnless_laid deeper first.sound tested)
  have third := second.skip (expect_laid (by decide) second.sound stops')
  have fourth := third.trans (expressionUnless_laid deeper third.sound updated)
  have fifth := fourth.skip (expect_laid (by decide) fourth.sound closes)
  exact fun _ => fifth.trans (statement_laid deeper fifth.sound read).toLaid

theorem forEachRest_laid {left : ForHead} {isOf : Bool} (head : Laid origin c [.forHead left] m)
    (run : scope.forEachRest left isOf m = .ok (form, c'))
    : ∀ placement, Laid origin c (Node.ofStatement (form placement)) c' := by
  simp only [forEachRest, forEachObject, bind_ok, ite_ok, pure_ok] at run
  obtain ⟨right, m₁, object, _, m₂, closes, body, m₃, read, rfl, rfl⟩ := run
  have first : Laid origin c [.forHead left, .expression right] m₁ := by
    rcases object with ⟨-, object⟩ | ⟨-, object⟩
    · exact head.trans (assignment_laid deeper head.sound object)
    · exact head.trans (expression_laid deeper head.sound object)
  have second := first.skip (expect_laid (by decide) first.sound closes)
  exact fun _ => second.trans (statement_laid deeper second.sound read).toLaid

theorem forStatement_laid (sound : c.Sound origin) (unbraced : c.Unbraced)
    (run : scope.forStatement c = .ok (form, c'))
    : ∀ placement, Laid origin c (Node.ofStatement (form placement)) c' := by
  simp only [forStatement, bind_ok, advance_ok] at run
  obtain ⟨_, _, rfl, _, m₁, await, _, m₂, opens, init, m₃, head, run⟩ := run
  have first := sound.advance_laid unbraced
  have second := first.trans (eat_laid (by decide) first.sound await)
  have third := second.trans (expect_laid (by decide) second.sound opens)
  have fourth := (forInit_laid deeper third.sound head).after third
  cases init with
  | none => exact forLoopRest_laid deeper fourth run
  | some left =>
      simp only [bind_ok, get_ok, ite_ok, advance_ok] at run
      obtain ⟨_, _, ⟨rfl, rfl⟩, ⟨word, _, _, rfl, run⟩ | ⟨-, run⟩⟩ := run
      · have separator : m₃.Unbraced := by
          simp only [Bool.or_eq_true] at word
          rcases word with word | word <;> exact Cursor.unbraced_of_sees (by decide) word
        exact forEachRest_laid deeper (fourth.skip (fourth.sound.advance_laid separator)) run
      · exact forLoopRest_laid deeper fourth run

-----------------------------------------------------------------------------------------
-- Exports
-----------------------------------------------------------------------------------------

section Form

variable (sound : c.Sound origin)

include sound

theorem exportDefault_laid (run : scope.exportDefault c = .ok (form, c'))
    : ∀ placement, Laid origin c (Node.ofStatement (form placement)) c' := by
  simp only [exportDefault, bind_ok, get_ok, ite_ok, pure_ok] at run
  obtain ⟨_, _, ⟨rfl, rfl⟩, ⟨-, declaration, m, read, rfl, rfl⟩ | ⟨-, value, m, read, _, m₁, ends, rfl,
    rfl⟩⟩ := run
  · exact fun _ => (statement_laid deeper sound read).toLaid
  · have first := assignment_laid deeper sound read
    exact fun _ => first.skip (consumeSemicolon_laid first.sound ends)

theorem exportStatement_laid (unbraced : c.Unbraced)
    (run : scope.exportStatement c = .ok (form, c'))
    : ∀ placement, Laid origin c (Node.ofStatement (form placement)) c' := by
  simp only [exportStatement, bind_ok, get_ok, advance_ok, ite_ok, pure_ok] at run
  obtain ⟨_, _, rfl, _, m, star, run⟩ := run
  have first := sound.advance_laid unbraced
  have second := first.trans (eat_laid (by decide) first.sound star)
  rcases run with ⟨-, run⟩ | ⟨-, _, m₁, default, run⟩
  · exact fun placement => (exportAll_laid second.sound run placement).after second
  · have third := second.trans (eat_laid (by decide) second.sound default)
    rcases run with ⟨-, run⟩ | ⟨-, _, _, ⟨rfl, rfl⟩, ⟨-, run⟩ | ⟨-, declaration, _, read, rfl, rfl⟩⟩
    · exact fun placement => (exportDefault_laid deeper third.sound run placement).after third
    · exact fun placement => (exportList_laid third.sound run placement).after third
    · exact fun _ => (statement_laid deeper third.sound read).toLaid.after third

-----------------------------------------------------------------------------------------
-- All statements
-----------------------------------------------------------------------------------------

theorem functionStatement_laid (run : (Statement.function <$> scope.functionDef) c = .ok (form, c'))
    : ∀ placement, Laid origin c (Node.ofStatement (form placement)) c' := by
  obtain ⟨definition, defined, rfl⟩ := map_ok.mp run
  exact fun _ => functionDef_laid deeper sound defined

variable {token : Token} (here : c.peek? = some token) (word : token.kind = .identifier)

include here word

theorem plainWordStatement_laid (run : scope.plainWordStatement c c = .ok (form, c'))
    : ∀ placement, Laid origin c (Node.ofStatement (form placement)) c' := by
  rcases ite_ok.mp run with ⟨colon, run⟩ | ⟨-, run⟩
  · have unbraced := Cursor.unbraced_of_kind here (by simp [word])
    exact labeledStatement_laid deeper sound unbraced here colon run
  · exact expressionStatement_laid deeper sound run

theorem wordStatement_laid {text : String} (run : scope.wordStatement text c = .ok (form, c'))
    : ∀ placement, Laid origin c (Node.ofStatement (form placement)) c' := by
  have unbraced : c.Unbraced := Cursor.unbraced_of_kind here (by simp [word])
  simp only [wordStatement, bind_ok, get_ok] at run
  obtain ⟨_, _, ⟨rfl, rfl⟩, run⟩ := run
  split at run
  case h_1 | h_2 => exact variableStatement_laid deeper sound unbraced run
  case h_3 =>
    rcases ite_ok.mp run with ⟨-, run⟩ | ⟨-, run⟩
    · exact variableStatement_laid deeper sound unbraced run
    · exact plainWordStatement_laid deeper sound here word run
  case h_4 => exact functionStatement_laid deeper sound run
  case h_5 =>
    rcases ite_ok.mp run with ⟨-, run⟩ | ⟨-, run⟩
    · exact functionStatement_laid deeper sound run
    · exact plainWordStatement_laid deeper sound here word run
  case h_6 =>
    obtain ⟨definition, defined, rfl⟩ := map_ok.mp run
    exact fun _ => classDef_laid deeper sound defined
  case h_7 => exact conditionalStatement_laid deeper sound unbraced run
  case h_8 => exact forStatement_laid deeper sound unbraced run
  case h_9 => exact whileStatement_laid deeper sound unbraced run
  case h_10 => exact doWhileStatement_laid deeper sound unbraced run
  case h_11 => exact returnStatement_laid deeper sound unbraced run
  case h_12 | h_13 => exact jumpStatement_laid sound unbraced run fun _ => rfl
  case h_14 => exact throwStatement_laid deeper sound unbraced run
  case h_15 =>
    simp only [bind_ok, advance_ok, pure_ok] at run
    obtain ⟨_, _, rfl, _, m, ends, rfl, rfl⟩ := run
    have first := sound.advance_laid unbraced
    exact fun _ => first.skip (consumeSemicolon_laid first.sound ends)
  case h_16 => exact tryStatement_laid deeper sound unbraced run
  case h_17 => exact switchStatement_laid deeper sound unbraced run
  case h_18 => exact withStatement_laid deeper sound unbraced run
  case h_19 =>
    rcases ite_ok.mp run with ⟨-, run⟩ | ⟨-, run⟩
    · exact plainWordStatement_laid deeper sound here word run
    · exact importFrom_laid sound here word run
  case h_20 => exact exportStatement_laid deeper sound unbraced run
  case h_21 => exact plainWordStatement_laid deeper sound here word run

end Form

theorem statementForm_laid (sound : c.Sound origin) (run : scope.statementForm c = .ok (form, c'))
    : ∀ placement, Laid origin c (Node.ofStatement (form placement)) c' := by
  simp only [statementForm, bind_ok, get_ok] at run
  obtain ⟨_, _, ⟨rfl, rfl⟩, run⟩ := run
  cases here : c.peek? with
  | none => simp only [here, endOfInput_ok] at run
  | some token =>
      simp only [here, ite_ok, map_ok, bind_ok, advance_ok, pure_ok] at run
      rcases run with ⟨-, block, enclosed, rfl⟩ | ⟨-, ⟨semicolon, _, _, rfl, rfl, rfl⟩ | ⟨-, ⟨word, run⟩
        | ⟨-, run⟩⟩⟩
      · exact fun _ => (block_laid deeper sound enclosed).1
      · have sees := Cursor.sees_of_isPunctuator here semicolon
        exact fun _ => sound.advance_laid (Cursor.unbraced_of_sees (by decide) sees)
      · exact wordStatement_laid deeper sound here (beq_iff_eq.mp word) run
      · exact expressionStatement_laid deeper sound run

theorem statementNode_laid {statement : Statement} (sound : c.Sound origin)
    (run : scope.statementNode c = .ok (statement, c'))
    : ElementLaid origin c (.statement statement) statement.extent c' := by
  have read := statementNode_read deeper.toCovers sound run
  simp only [statementNode, bind_ok, get_ok, start_ok, extentFrom_ok, pure_ok] at run
  obtain ⟨_, _, ⟨rfl, rfl⟩, _, _, ⟨token, here, rfl, rfl⟩, form, m, run, _, _, ⟨rfl, rfl⟩, rfl, rfl⟩ :=
    run
  have laid (placement : Placement)
      : Laid origin c (Node.statement (form placement)).children m :=
    statementForm_laid deeper sound run placement
  refine (laid _).element (read.covered .program).toLedger sound read.rises ?_ rfl rfl rfl rfl
  rw [(statementForm_read deeper.toCovers sound run).extent, ← Cursor.Sound.offset_eq here,
    Nat.max_eq_left (Nat.le_of_lt read.rises)]

end Scope

end ScriptStyle.Grammar
