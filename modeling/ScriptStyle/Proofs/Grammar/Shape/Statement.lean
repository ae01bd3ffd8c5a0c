import ScriptStyle.Proofs.Grammar.Shape.Expression

/-!
The shape of statements. The expressions of a statement add two nodes to what is a level deeper,
and the statement adds one; the clauses of imports and exports hold no expressions.
-/

namespace ScriptStyle.Grammar

open Node (Shaped)
open ScriptStyle.Grammar.Parser (Gives)

/-- What a form of statements consists of has its shape, and the statement stands where it is
placed. -/
structure FormShaped (bound : Nat) (form : Placement → Statement) : Prop where
  placed : ∀ placement, (form placement).placement = placement
  children : ∀ placement, ∀ child ∈ Node.ofStatement (form placement), child.Shaped bound

-----------------------------------------------------------------------------------------
-- Imports and exports
-----------------------------------------------------------------------------------------

section Clauses

variable {bound : Nat}

theorem moduleName_shaped (value : ModuleName)
    : (Node.moduleName value).Shaped bound :=
  .uncounted rfl rfl (by simp [Node.children])

theorem moduleSource_shaped (span : Span)
    : (Node.moduleSource span).Shaped bound :=
  .uncounted rfl rfl (by simp [Node.children])

theorem specifier_shaped (value : Specifier)
    : (Node.specifier value).Shaped bound :=
  .uncounted rfl rfl (by simp [Node.children, moduleName_shaped])

theorem importAttribute_shaped (value : ImportAttribute)
    : (Node.importAttribute value).Shaped bound :=
  .uncounted rfl rfl (by simp [Node.children, moduleName_shaped, moduleSource_shaped])

theorem importFrom_formShaped
    : Gives importFrom (FormShaped bound) := by
  refine .bind .any fun _ _ => .bind .any fun specifiers _ => .bind .any fun source _ => ?_
  refine .bind .any fun entries _ => .bind .any fun _ _ => .pure ⟨fun _ => rfl, fun placement => ?_⟩
  simp [Node.ofStatement, or_imp, forall_and, specifier_shaped, moduleSource_shaped,
    importAttribute_shaped]

theorem exportAll_formShaped
    : Gives exportAll (FormShaped bound) := by
  refine .bind .any fun name _ => .bind .any fun _ _ => .bind .any fun source _ => ?_
  refine .bind .any fun entries _ => .bind .any fun _ _ => .pure ⟨fun _ => rfl, fun placement => ?_⟩
  simp [Node.ofStatement, or_imp, forall_and, moduleName_shaped, moduleSource_shaped,
    importAttribute_shaped]

theorem exportList_formShaped
    : Gives exportList (FormShaped bound) := by
  refine .bind .any fun specifiers _ => .bind .any fun origin _ => ?_
  refine .bind .any fun _ _ => .pure ⟨fun _ => rfl, fun placement => ?_⟩
  simp [Node.ofStatement, or_imp, forall_and, specifier_shaped, moduleSource_shaped,
    importAttribute_shaped]

end Clauses

namespace Scope

variable {scope : Scope} {bound : Nat} (deeper : scope.deeper.Shapes bound)

include deeper

-----------------------------------------------------------------------------------------
-- Declarations
-----------------------------------------------------------------------------------------

theorem bindingTarget_shaped
    : Gives scope.bindingTarget fun value => (Node.expression value).Shaped (bound + 2) :=
  .bind .any fun _ _ => .ite (operand_shaped deeper) identifier_shaped

theorem declarator_shaped (allowIn : Bool)
    : Gives (scope.declarator allowIn) fun value =>
        (Node.declarator value).Shaped (bound + 2) := by
  refine .bind (bindingTarget_shaped deeper) fun target shaped => ?_
  refine .bind (deeper.assignment _ allowIn).after? fun init given => .pure (.uncounted rfl rfl ?_)
  simpa [Node.children] using ⟨shaped, fun value found => (given value found).mono (by omega)⟩

theorem declaration_shaped (allowIn : Bool)
    : Gives (scope.declaration allowIn) fun found =>
        ∀ value ∈ found.2, (Node.declarator value).Shaped (bound + 2) :=
  .bind .any fun _ _ => .bind .any fun _ _ =>
    .bind (declarator_shaped deeper allowIn).commaSeparated fun _ all => .pure all

theorem variableStatement_formShaped
    : Gives scope.variableStatement (FormShaped (bound + 2)) := by
  refine .bind (declaration_shaped deeper true) fun found all => .bind .any fun _ _ => ?_
  refine .pure ⟨fun _ => rfl, fun placement => ?_⟩
  simpa [Node.ofStatement] using all

theorem function_formShaped
    : Gives (Statement.function <$> scope.functionDef) (FormShaped (bound + 2)) := by
  refine (functionDef_shaped deeper).map fun definition shaped => ⟨fun _ => rfl, fun placement => ?_⟩
  simpa [Node.ofStatement] using shaped.mono (Nat.le_succ _)

theorem class_formShaped
    : Gives (Statement.class <$> scope.classDef) (FormShaped (bound + 2)) := by
  refine (classDef_shaped deeper).map fun definition shaped => ⟨fun _ => rfl, fun placement => ?_⟩
  simpa [Node.ofStatement] using shaped.mono (Nat.le_succ _)

-----------------------------------------------------------------------------------------
-- Parts of statements
-----------------------------------------------------------------------------------------

/-- The expressions of statements have room for one node more. -/
theorem value_shaped (allowIn : Bool)
    : Gives (scope.expression allowIn) fun value =>
        (Node.expression value).Shaped (bound + 2) :=
  (expression_shaped deeper allowIn).mono fun _ shaped => shaped.mono (Nat.le_succ _)

theorem head_shaped
    : Gives scope.parenthesized fun value => (Node.expression value).Shaped (bound + 2) :=
  (parenthesized_shaped deeper).mono fun _ shaped => shaped.mono (Nat.le_succ _)

theorem body_shaped
    : Gives scope.statement fun value => (Node.statement value).Shaped (bound + 2) :=
  (deeper.statement _).mono fun _ shaped => shaped.mono (by omega)

theorem guarded_shaped
    : Gives scope.block fun value => (Node.block value).Shaped (bound + 2) :=
  (block_shaped deeper).mono fun _ shaped => shaped.mono (by omega)

theorem forInit_shaped
    : Gives scope.forInit fun found =>
        ∀ value ∈ found, (Node.forHead value).Shaped (bound + 2) := by
  refine .bind .any fun cursor _ => .ite (.pure (by simp)) (.ite ?_ ?_)
  · refine .bind (declaration_shaped deeper false) fun found all => .pure ?_
    have head : (Node.forHead (.declaration found.1 found.2)).Shaped (bound + 2) :=
      .uncounted rfl rfl (by simpa [Node.children] using all)
    simpa using head
  · refine .bind (value_shaped deeper false) fun value shaped => .pure ?_
    have head : (Node.forHead (.value value)).Shaped (bound + 2) :=
      .uncounted rfl rfl (by simpa [Node.children] using shaped)
    simpa using head

theorem catchClause_shaped
    : Gives scope.catchClause fun value => (Node.catchClause value).Shaped (bound + 2) := by
  have param : Gives (do
      let param ← scope.bindingTarget
      Parser.expect ")"
      pure param) fun value => (Node.expression value).Shaped (bound + 2) :=
    .bind (bindingTarget_shaped deeper) fun _ shaped => .bind .any fun _ _ => .pure shaped
  refine .bind param.after? fun param given => .bind (guarded_shaped deeper) fun body shaped => ?_
  refine .pure (.uncounted rfl rfl ?_)
  simpa [Node.children, or_imp, forall_and] using ⟨given, shaped⟩

theorem switchCase_shaped
    : Gives scope.switchCase fun value => (Node.switchCase value).Shaped (bound + 2) := by
  have test : Gives scope.caseTest fun found =>
      ∀ value ∈ found, (Node.expression value).Shaped (bound + 2) := by
    refine .bind .any fun eaten _ => .ite ?_ (.bind .any fun _ _ => .pure (by simp))
    exact (value_shaped deeper true).map fun value shaped => by simpa using shaped
  have clause : Gives scope.clauseRound
      (Parser.Round.Holds fun value => (Node.statement value).Shaped (bound + 2)) :=
    .bind .any fun cursor _ => .ite (.pure trivial) (.bind .any fun closes _ =>
      .ite (.pure trivial) ((body_shaped deeper).map fun _ shaped => shaped))
  refine .bind test fun test given => .bind .any fun _ _ => .bind clause.rounds fun body all => ?_
  refine .pure (.uncounted rfl rfl ?_)
  simpa [Node.children, or_imp, forall_and] using ⟨given, all⟩

-----------------------------------------------------------------------------------------
-- Forms of statements
-----------------------------------------------------------------------------------------

theorem expressionStatement_formShaped
    : Gives scope.expressionStatement (FormShaped (bound + 2)) := by
  refine .bind (value_shaped deeper true) fun value shaped => .bind .any fun _ _ => ?_
  refine .pure ⟨fun _ => rfl, fun placement => ?_⟩
  simpa [Node.ofStatement] using shaped

theorem conditionalStatement_formShaped
    : Gives scope.conditionalStatement (FormShaped (bound + 2)) := by
  refine .bind .any fun _ _ => .bind (head_shaped deeper) fun test first => ?_
  refine .bind (body_shaped deeper) fun consequent second => ?_
  refine .bind (body_shaped deeper).after? fun alternate third => .pure ⟨fun _ => rfl, fun placement => ?_⟩
  simpa [Node.ofStatement, or_imp, forall_and] using ⟨first, second, third⟩

theorem forStatement_formShaped
    : Gives scope.forStatement (FormShaped (bound + 2)) := by
  have optional (closing : String) : Gives (scope.expressionUnless closing) fun found =>
      ∀ value ∈ found, (Node.expression value).Shaped (bound + 2) :=
    .bind .any fun cursor _ => (value_shaped deeper true).onlyIf
  have threeParts {init : Option ForHead}
      (first : ∀ value ∈ init, (Node.forHead value).Shaped (bound + 2))
      : Gives (scope.forLoopRest init) (FormShaped (bound + 2)) := by
    refine .bind .any fun _ _ => .bind (optional ";") fun test second => .bind .any fun _ _ => ?_
    refine .bind (optional ")") fun update third => .bind .any fun _ _ => ?_
    refine .bind (body_shaped deeper) fun body last => .pure ⟨fun _ => rfl, fun placement => ?_⟩
    simpa [Node.ofStatement, or_imp, forall_and] using ⟨first, second, third, last⟩
  have overObject {left : ForHead} (isOf : Bool)
      (first : (Node.forHead left).Shaped (bound + 2))
      : Gives (scope.forEachRest left isOf) (FormShaped (bound + 2)) := by
    have object : Gives (scope.forEachObject isOf) fun value =>
        (Node.expression value).Shaped (bound + 2) :=
      .ite ((deeper.assignment _ true).mono fun _ shaped => shaped.mono (by omega))
        (value_shaped deeper true)
    refine .bind object fun right second => .bind .any fun _ _ => ?_
    refine .bind (body_shaped deeper) fun body last => .pure ⟨fun _ => rfl, fun placement => ?_⟩
    simpa [Node.ofStatement] using ⟨first, second, last⟩
  refine .bind .any fun _ _ => .bind .any fun _ _ => .bind .any fun _ _ => ?_
  refine .bind (forInit_shaped deeper) fun found given => ?_
  cases found with
  | none => exact threeParts given
  | some left =>
      refine .bind .any fun cursor _ => .ite (.bind .any fun _ _ => ?_) (threeParts given)
      exact overObject _ (given left rfl)

theorem whileStatement_formShaped
    : Gives scope.whileStatement (FormShaped (bound + 2)) := by
  refine .bind .any fun _ _ => .bind (head_shaped deeper) fun test first => ?_
  refine .bind (body_shaped deeper) fun body second => .pure ⟨fun _ => rfl, fun placement => ?_⟩
  simpa [Node.ofStatement] using ⟨first, second⟩

theorem doWhileStatement_formShaped
    : Gives scope.doWhileStatement (FormShaped (bound + 2)) := by
  refine .bind .any fun _ _ => .bind (body_shaped deeper) fun body first => ?_
  refine .bind .any fun _ _ => .bind (head_shaped deeper) fun test second => ?_
  refine .bind .any fun _ _ => .pure ⟨fun _ => rfl, fun placement => ?_⟩
  simpa [Node.ofStatement] using ⟨second, first⟩

theorem returnStatement_formShaped
    : Gives scope.returnStatement (FormShaped (bound + 2)) := by
  refine .bind .any fun _ _ => .bind .any fun cursor _ => ?_
  refine .bind (value_shaped deeper true).onlyIf fun value given => .bind .any fun _ _ => ?_
  refine .pure ⟨fun _ => rfl, fun placement => ?_⟩
  simpa [Node.ofStatement] using given

theorem throwStatement_formShaped
    : Gives scope.throwStatement (FormShaped (bound + 2)) := by
  refine .bind .any fun _ _ => .bind (value_shaped deeper true) fun value shaped => ?_
  refine .bind .any fun _ _ => .pure ⟨fun _ => rfl, fun placement => ?_⟩
  simpa [Node.ofStatement] using shaped

omit deeper in
theorem jumpStatement_formShaped {form : Placement → Statement} (plain : FormShaped bound form)
    : Gives (jumpStatement form) (FormShaped bound) :=
  .bind .any fun _ _ => .bind .any fun _ _ => .bind .any fun _ _ => .bind .any fun _ _ =>
    .pure plain

theorem tryStatement_formShaped
    : Gives scope.tryStatement (FormShaped (bound + 2)) := by
  refine .bind .any fun _ _ => .bind (guarded_shaped deeper) fun block first => ?_
  refine .bind (catchClause_shaped deeper).after? fun handler second => ?_
  refine .bind (guarded_shaped deeper).after? fun finalizer third => .pure ⟨fun _ => rfl, fun placement => ?_⟩
  simpa [Node.ofStatement, or_imp, forall_and] using ⟨first, second, third⟩

theorem switchStatement_formShaped
    : Gives scope.switchStatement (FormShaped (bound + 2)) := by
  refine .bind .any fun _ _ => .bind (head_shaped deeper) fun discriminant first => ?_
  refine .bind .any fun _ _ => .bind (switchCase_shaped deeper).itemsUntil fun cases all => ?_
  refine .pure ⟨fun _ => rfl, fun placement => ?_⟩
  simpa [Node.ofStatement] using ⟨first, all⟩

theorem withStatement_formShaped
    : Gives scope.withStatement (FormShaped (bound + 2)) := by
  refine .bind .any fun _ _ => .bind (head_shaped deeper) fun object first => ?_
  refine .bind (body_shaped deeper) fun body second => .pure ⟨fun _ => rfl, fun placement => ?_⟩
  simpa [Node.ofStatement] using ⟨first, second⟩

theorem labeledStatement_formShaped
    : Gives scope.labeledStatement (FormShaped (bound + 2)) := by
  refine .bind .any fun _ _ => .bind .any fun _ _ => .bind (body_shaped deeper) ?_
  refine fun body shaped => .pure ⟨fun _ => rfl, fun placement => ?_⟩
  simpa [Node.ofStatement] using shaped

theorem exportStatement_formShaped
    : Gives scope.exportStatement (FormShaped (bound + 2)) := by
  have default : Gives scope.exportDefault (FormShaped (bound + 2)) := by
    refine .bind .any fun cursor _ => .ite ?_ ?_
    · refine .bind (body_shaped deeper) fun declaration shaped => .pure ⟨fun _ => rfl, fun placement => ?_⟩
      simpa [Node.ofStatement] using shaped
    · refine .bind (deeper.assignment _ true) fun value shaped => .bind .any fun _ _ => ?_
      refine .pure ⟨fun _ => rfl, fun placement => ?_⟩
      simpa [Node.ofStatement] using shaped.mono (by omega)
  refine .bind .any fun _ _ => .bind .any fun eaten _ => .ite exportAll_formShaped ?_
  refine .bind .any fun eaten _ => .ite default (.bind .any fun cursor _ => ?_)
  refine .ite exportList_formShaped (.bind (body_shaped deeper) fun declaration shaped => ?_)
  refine .pure ⟨fun _ => rfl, fun placement => ?_⟩
  simpa [Node.ofStatement] using shaped

theorem plainWordStatement_formShaped (cursor : Cursor)
    : Gives (scope.plainWordStatement cursor) (FormShaped (bound + 2)) :=
  .ite (labeledStatement_formShaped deeper) (expressionStatement_formShaped deeper)

theorem wordStatement_formShaped (word : String)
    : Gives (scope.wordStatement word) (FormShaped (bound + 2)) := by
  have plain := plainWordStatement_formShaped deeper
  refine .bind .any fun cursor _ => ?_
  split
  · exact variableStatement_formShaped deeper
  · exact variableStatement_formShaped deeper
  · exact .ite (variableStatement_formShaped deeper) (plain cursor)
  · exact function_formShaped deeper
  · exact .ite (function_formShaped deeper) (plain cursor)
  · exact class_formShaped deeper
  · exact conditionalStatement_formShaped deeper
  · exact forStatement_formShaped deeper
  · exact whileStatement_formShaped deeper
  · exact doWhileStatement_formShaped deeper
  · exact returnStatement_formShaped deeper
  · exact jumpStatement_formShaped ⟨fun _ => rfl, fun _ => by simp [Node.ofStatement]⟩
  · exact jumpStatement_formShaped ⟨fun _ => rfl, fun _ => by simp [Node.ofStatement]⟩
  · exact throwStatement_formShaped deeper
  · exact .bind .any fun _ _ => .bind .any fun _ _ => .pure ⟨fun _ => rfl, fun _ => by simp [Node.ofStatement]⟩
  · exact tryStatement_formShaped deeper
  · exact switchStatement_formShaped deeper
  · exact withStatement_formShaped deeper
  · exact .ite (plain cursor) importFrom_formShaped
  · exact exportStatement_formShaped deeper
  · exact plain cursor

theorem statementForm_formShaped
    : Gives scope.statementForm (FormShaped (bound + 2)) := by
  refine .bind .any fun cursor _ => ?_
  cases cursor.peek? with
  | none => exact .endOfInput
  | some token =>
      refine .ite ?_ (.ite ?_ (.ite (wordStatement_formShaped deeper _)
        (expressionStatement_formShaped deeper)))
      · refine (guarded_shaped deeper).map fun block shaped => ⟨fun _ => rfl, fun placement => ?_⟩
        simpa [Node.ofStatement] using shaped
      · exact .bind .any fun _ _ => .pure ⟨fun _ => rfl, fun _ => by simp [Node.ofStatement]⟩

theorem statementNode_shaped
    : Gives scope.statementNode fun value => (Node.statement value).Shaped (bound + 3) :=
  .bind .any fun _ _ => .bind .any fun _ _ => .bind (statementForm_formShaped deeper)
    fun form shaped => .bind .any fun extent _ => .pure (.of_statement (by
      rw [Statement.IsUnmarked, shaped.placed]
      exact ⟨rfl, rfl⟩) (shaped.children _))

end Scope

end ScriptStyle.Grammar
