import ScriptStyle.Proofs.Grammar.Progress.Expression

/-!
How the parsers of statements walk over the tokens. A statement that begins with a keyword has
taken a token before anything else in it begins.
-/

namespace ScriptStyle.Grammar

open ScriptStyle.Grammar.Parser

variable {origin : Scanner} {depth need : Nat}

-----------------------------------------------------------------------------------------
-- Modules
-----------------------------------------------------------------------------------------

theorem moduleName_walks (c : Cursor)
    : Parser.Walks origin depth need c moduleName := by
  refine .look ?_
  cases c.peek? with
  | none => exact .unexpected
  | some token =>
      refine .ite (fun _ => .bind .advance fun _ _ => .pure) fun _ => ?_
      exact .ite (fun _ => .bind .advance fun _ _ => .pure) fun _ => .unexpected

theorem moduleString_walks (c : Cursor)
    : Parser.Walks origin depth need c moduleString := by
  refine .look ?_
  cases c.peek? with
  | none => exact .unexpected
  | some token => exact .ite (fun _ => .bind .advance fun _ _ => .pure) fun _ => .unexpected

theorem moduleAlias_walks (c : Cursor)
    : Parser.Walks origin depth need c moduleAlias :=
  .after? (moduleName_walks _)

theorem specifier_walks (c : Cursor)
    : Parser.Walks origin depth need c specifier :=
  .bind (moduleName_walks c) fun _ m => .bind (moduleAlias_walks m) fun _ _ => .pure

theorem specifiers_walks (c : Cursor)
    : Parser.Walks origin depth need c specifiers :=
  .bind .expect fun _ _ => .commaListUntil specifier_walks

theorem importAttribute_walks (c : Cursor)
    : Parser.Walks origin depth need c importAttribute :=
  .bind (moduleName_walks c) fun _ _ => .bind .expect fun _ m =>
    .bind (moduleString_walks m) fun _ _ => .pure

theorem importAttributes_walks (c : Cursor)
    : Parser.Walks origin depth need c importAttributes :=
  .look (.ite (fun _ => .bind .advance fun _ _ => .bind .expect fun _ _ =>
    .commaListUntil importAttribute_walks) fun _ => .pure)

theorem importBindings_walks (c : Cursor)
    : Parser.Walks origin depth need c importBindings := by
  refine .bind .eat fun _ m => .ite (fun _ => ?_) fun _ => specifiers_walks m
  exact .bind .expect fun _ m => .bind (identifier_walks m) fun _ _ => .pure

theorem importNames_walks (c : Cursor)
    : Parser.Walks origin depth need c importNames :=
  .look (.ite (fun _ => .bind .advance fun _ _ => .bind .eat fun _ m =>
    .ite (fun _ => importBindings_walks m) fun _ => .pure) fun _ => importBindings_walks c)

theorem importClause_walks (c : Cursor)
    : Parser.Walks origin depth need c importClause :=
  .look (.ite (fun _ => .pure) fun _ => .bind (importNames_walks c) fun _ _ =>
    .bind .expect fun _ _ => .pure)

theorem importFrom_walks (c : Cursor)
    : Parser.Walks origin depth need c importFrom :=
  .bind .advance fun _ m => .bind (importClause_walks m) fun _ m =>
    .bind (moduleString_walks m) fun _ m => .bind (importAttributes_walks m) fun _ _ =>
      .bind .consumeSemicolon fun _ _ => .pure

theorem exportAll_walks (c : Cursor)
    : Parser.Walks origin depth need c exportAll :=
  .bind (moduleAlias_walks c) fun _ _ => .bind .expect fun _ m =>
    .bind (moduleString_walks m) fun _ m => .bind (importAttributes_walks m) fun _ _ =>
      .bind .consumeSemicolon fun _ _ => .pure

theorem exportOrigin_walks (c : Cursor)
    : Parser.Walks origin depth need c exportOrigin :=
  .bind .eat fun _ m => .ite (fun _ => .bind (moduleString_walks m) fun _ m =>
    .bind (importAttributes_walks m) fun _ _ => .pure) fun _ => .pure

theorem exportList_walks (c : Cursor)
    : Parser.Walks origin depth need c exportList :=
  .bind (specifiers_walks c) fun _ m => .bind (exportOrigin_walks m) fun _ _ =>
    .bind .consumeSemicolon fun _ _ => .pure

namespace Scope

variable {scope : Scope} (deeper : scope.deeper.Walks origin depth)

include deeper

-----------------------------------------------------------------------------------------
-- Declarations and simple statements
-----------------------------------------------------------------------------------------

theorem bindingTarget_walks (c : Cursor)
    : Parser.Walks origin depth need c scope.bindingTarget :=
  .look (.ite (fun _ => operand_walks deeper c) fun _ => identifier_walks c)

theorem declarator_walks (allowIn : Bool) (c : Cursor)
    : Parser.Walks origin depth need c (scope.declarator allowIn) :=
  .bind (bindingTarget_walks deeper c) fun _ _ =>
    .bind (.after? (assignment_walks deeper allowIn _)) fun _ _ => .pure

theorem declaration_walks (allowIn : Bool) (c : Cursor)
    : Parser.Walks origin depth need c (scope.declaration allowIn) :=
  .look (.bind .advance fun _ _ => .bind (.commaSeparated (declarator_walks deeper allowIn))
    fun _ _ => .pure)

theorem variableStatement_walks (c : Cursor)
    : Parser.Walks origin depth need c scope.variableStatement :=
  .bind (declaration_walks deeper true c) fun _ _ => .bind .consumeSemicolon fun _ _ => .pure

theorem expressionStatement_walks (c : Cursor)
    : Parser.Walks origin depth (need + 2) c scope.expressionStatement :=
  .bind (expression_walks deeper true c) fun _ _ => .bind .consumeSemicolon fun _ _ => .pure

omit deeper in
theorem jumpStatement_walks (form : Placement → Statement) (c : Cursor)
    : Parser.Walks origin depth need c (jumpStatement form) :=
  .bind .advance fun _ _ => .look (.bind .advanceIf fun _ _ =>
    .bind .consumeSemicolon fun _ _ => .pure)

-----------------------------------------------------------------------------------------
-- Statements behind a keyword
-----------------------------------------------------------------------------------------

section Keyword

variable {c : Cursor} (space : c.Spacious origin need)

include space

theorem returnStatement_walks
    : Parser.Walks origin depth need c scope.returnStatement :=
  .past space (.look (.bind (.onlyIf (expression_walks deeper true _)) fun _ _ =>
    .bind .consumeSemicolon fun _ _ => .pure))

theorem throwStatement_walks
    : Parser.Walks origin depth need c scope.throwStatement :=
  .past space (.bind (expression_walks deeper true _) fun _ _ =>
    .bind .consumeSemicolon fun _ _ => .pure)

theorem labeledStatement_walks
    : Parser.Walks origin depth need c scope.labeledStatement :=
  .past space (.bind .advance fun _ m => .bind (statement_walks deeper m) fun _ _ => .pure)

theorem conditionalStatement_walks
    : Parser.Walks origin depth need c scope.conditionalStatement :=
  .past space (.bind (parenthesized_walks deeper _) fun _ m =>
    .bind (statement_walks deeper m) fun _ _ => .bind (.after? (statement_walks deeper _)) fun _ _ =>
      .pure)

theorem whileStatement_walks
    : Parser.Walks origin depth need c scope.whileStatement :=
  .past space (.bind (parenthesized_walks deeper _) fun _ m =>
    .bind (statement_walks deeper m) fun _ _ => .pure)

theorem withStatement_walks
    : Parser.Walks origin depth need c scope.withStatement :=
  .past space (.bind (parenthesized_walks deeper _) fun _ m =>
    .bind (statement_walks deeper m) fun _ _ => .pure)

theorem doWhileStatement_walks
    : Parser.Walks origin depth need c scope.doWhileStatement :=
  .past space (.bind (statement_walks deeper _) fun _ _ => .bind .expect fun _ m =>
    .bind (parenthesized_walks deeper m) fun _ _ => .bind .eat fun _ _ => .pure)

end Keyword

-----------------------------------------------------------------------------------------
-- Loops with a head
-----------------------------------------------------------------------------------------

theorem forInit_walks (c : Cursor)
    : Parser.Walks origin depth (need + 2) c scope.forInit := by
  refine .look (.ite (fun _ => .pure) fun _ => .ite (fun _ => ?_) fun _ => ?_)
  · exact .bind (declaration_walks deeper false c) fun _ _ => .pure
  · exact .bind (expression_walks deeper false c) fun _ _ => .pure

theorem expressionUnless_walks (closing : String) (c : Cursor)
    : Parser.Walks origin depth (need + 2) c (scope.expressionUnless closing) :=
  .look (.onlyIf (expression_walks deeper true c))

theorem forLoopRest_walks (init : Option ForHead) (c : Cursor)
    : Parser.Walks origin depth need c (scope.forLoopRest init) :=
  .pastExpected (.bind (expressionUnless_walks deeper ";" _) fun _ _ => .bind .expect fun _ m =>
    .bind (expressionUnless_walks deeper ")" m) fun _ _ => .bind .expect fun _ m =>
      .bind (statement_walks deeper m) fun _ _ => .pure)

theorem forEachRest_walks (left : ForHead) (isOf : Bool) (c : Cursor)
    : Parser.Walks origin depth (need + 2) c (scope.forEachRest left isOf) := by
  have object (c : Cursor)
      : Parser.Walks origin depth (need + 2) c (scope.forEachObject isOf) :=
    .ite (fun _ => assignment_walks deeper true c) fun _ => expression_walks deeper true c
  exact .bind (object c) fun _ _ => .pastExpected (.bind (statement_walks deeper _) fun _ _ => .pure)

theorem forStatement_walks (c : Cursor)
    : Parser.Walks origin depth need c scope.forStatement := by
  refine .bind .advance fun _ _ => .bind .eat fun _ _ => .pastExpected ?_
  refine .bind (forInit_walks deeper _) fun init m => ?_
  cases init with
  | none => exact forLoopRest_walks deeper none m
  | some left =>
      refine .look (.ite (fun _ => ?_) fun _ => forLoopRest_walks deeper _ m)
      exact .bind .advance fun _ m => forEachRest_walks deeper left _ m

-----------------------------------------------------------------------------------------
-- Handlers and switches
-----------------------------------------------------------------------------------------

theorem catchClause_walks (c : Cursor)
    : Parser.Walks origin depth need c scope.catchClause := by
  refine .bind (.after? ?_) fun _ m => .bind (block_walks deeper m) fun _ _ => .pure
  exact .bind (bindingTarget_walks deeper _) fun _ _ => .bind .expect fun _ _ => .pure

theorem tryStatement_walks (c : Cursor)
    : Parser.Walks origin depth need c scope.tryStatement :=
  .bind .advance fun _ m => .bind (block_walks deeper m) fun _ _ =>
    .bind (.after? (catchClause_walks deeper _)) fun _ _ =>
      .bind (.after? (block_walks deeper _)) fun _ _ => .pure

theorem clauseRound_walks (c : Cursor)
    : Parser.Walks origin depth (need + 3) c scope.clauseRound :=
  .look (.ite (fun _ => .pure) fun _ => .bind .atClose fun _ m =>
    .ite (fun _ => .pure) fun _ => (statement_walks deeper m).map)

theorem caseTest_walks (c : Cursor)
    : Parser.Walks origin depth need c scope.caseTest :=
  .pastEaten (expression_walks deeper true _).map (.bind .expect fun _ _ => .pure)

theorem switchCase_walks (c : Cursor)
    : Parser.Walks origin depth need c scope.switchCase :=
  .bind (caseTest_walks deeper c) fun _ _ => .pastExpected
    (.bind (.rounds (clauseRound_walks deeper)) fun _ _ => .pure)

theorem switchStatement_walks (c : Cursor)
    : Parser.Walks origin depth need c scope.switchStatement :=
  .bind .advance fun _ m => .bind (parenthesized_walks deeper m) fun _ _ =>
    .bind .expect fun _ _ => .bind (.itemsUntil (switchCase_walks deeper)) fun _ _ => .pure

-----------------------------------------------------------------------------------------
-- Exports
-----------------------------------------------------------------------------------------

theorem exportDefault_walks (c : Cursor)
    : Parser.Walks origin depth (need + 3) c scope.exportDefault := by
  refine .look (.ite (fun _ => .bind (statement_walks deeper c) fun _ _ => .pure) fun _ => ?_)
  exact .bind (assignment_walks deeper true c) fun _ _ => .bind .consumeSemicolon fun _ _ => .pure

theorem exportStatement_walks {c : Cursor} (space : c.Spacious origin need)
    : Parser.Walks origin depth need c scope.exportStatement := by
  refine .past space (.bind .eat fun _ m => .ite (fun _ => exportAll_walks m) fun _ => ?_)
  refine .bind .eat fun _ m => .ite (fun _ => exportDefault_walks deeper m) fun _ => .look ?_
  exact .ite (fun _ => exportList_walks m) fun _ => .bind (statement_walks deeper m) fun _ _ => .pure

-----------------------------------------------------------------------------------------
-- Statements
-----------------------------------------------------------------------------------------

theorem plainWordStatement_walks {c : Cursor} (cursor : Cursor)
    (space : c.Spacious origin (need + 2))
    : Parser.Walks origin depth (need + 2) c (scope.plainWordStatement cursor) :=
  .ite (fun _ => labeledStatement_walks deeper space) fun _ => expressionStatement_walks deeper c

theorem wordStatement_walks (word : String) {c : Cursor} (space : c.Spacious origin (need + 2))
    : Parser.Walks origin depth (need + 2) c (scope.wordStatement word) := by
  have plain := plainWordStatement_walks deeper c space
  refine .look ?_
  split
  iterate 2 exact variableStatement_walks deeper c
  · exact .ite (fun _ => variableStatement_walks deeper c) fun _ => plain
  · exact (functionDef_walks deeper c).map
  · exact .ite (fun _ => (functionDef_walks deeper c).map) fun _ => plain
  · exact (classDef_walks deeper c).map
  · exact conditionalStatement_walks deeper space
  · exact forStatement_walks deeper c
  · exact whileStatement_walks deeper space
  · exact doWhileStatement_walks deeper space
  · exact returnStatement_walks deeper space
  iterate 2 exact jumpStatement_walks _ c
  · exact throwStatement_walks deeper space
  · exact .bind .advance fun _ _ => .bind .consumeSemicolon fun _ _ => .pure
  · exact tryStatement_walks deeper c
  · exact switchStatement_walks deeper c
  · exact withStatement_walks deeper space
  · exact .ite (fun _ => plain) fun _ => importFrom_walks c
  · exact exportStatement_walks deeper space
  · exact plain

theorem statementForm_walks (c : Cursor)
    : Parser.Walks origin depth (need + 2) c scope.statementForm := by
  refine .look ?_
  cases here : c.peek? with
  | none => exact .endOfInput
  | some token =>
      refine .ite (fun _ => (block_walks deeper c).map) fun _ => ?_
      refine .ite (fun _ => .bind .advance fun _ _ => .pure) fun _ => ?_
      refine .ite (fun _ => ?_) fun _ => expressionStatement_walks deeper c
      exact wordStatement_walks deeper token.text (.of_peek? here)

theorem statementNode_walks (c : Cursor)
    : Parser.Walks origin depth (need + 2) c scope.statementNode :=
  .look (.bind .start fun _ m => .bind (statementForm_walks deeper m) fun _ _ =>
    .bind .extentFrom fun _ _ => .pure)

end Scope

end ScriptStyle.Grammar
