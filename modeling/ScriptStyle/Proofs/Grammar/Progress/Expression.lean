import ScriptStyle.Proofs.Grammar.Progress.Function

/-!
How the parsers of expressions walk over the tokens. An operand needs no level of its own before
its first token is taken.
-/

namespace ScriptStyle.Grammar.Scope

open ScriptStyle.Grammar.Parser

variable {origin : Scanner} {depth need : Nat} {scope : Scope}
  (deeper : scope.deeper.Walks origin depth)

include deeper

-----------------------------------------------------------------------------------------
-- Operands
-----------------------------------------------------------------------------------------

omit deeper in
theorem templatePiece_walks (c : Cursor)
    : Parser.Walks origin depth need c templatePiece := by
  refine .look ?_
  cases c.peek? with
  | none => exact .unexpected
  | some piece =>
      refine .ite (fun _ => .bind .advance fun _ _ => .pure) fun _ => ?_
      exact .ite (fun _ => .bind .advance fun _ _ => .pure) fun _ => .unexpected

theorem substitution_walks (c : Cursor)
    : Parser.Walks origin depth (need + 2) c scope.substitution :=
  .bind (expression_walks deeper true c) fun _ m => .bind (templatePiece_walks m) fun _ _ => .pure

theorem templateLiteral_walks (isTagged : Bool) (c : Cursor)
    : Parser.Walks origin depth need c (scope.templateLiteral isTagged) := by
  refine .begin fun head here => .look ?_
  rw [here]
  refine .past (.of_peek? here) (.ite (fun _ => .bind .spanFrom fun _ _ => .pure) fun _ => ?_)
  exact .bind (.rounds (substitution_walks deeper)) fun _ _ => .bind .spanFrom fun _ _ => .pure

theorem arrayElement_walks (c : Cursor)
    : Parser.Walks origin depth (need + 2) c scope.arrayElement := by
  refine .bind .eat fun _ m => .ite (fun _ => .pure) fun _ => ?_
  refine .bind (spreadOrAssignment_walks deeper m) fun _ m => .look ?_
  exact .ite (fun _ => .bind .expect fun _ _ => .pure) fun _ => .pure

theorem arrayElements_walks {c : Cursor} (space : c.Spacious origin need)
    : Parser.Walks origin depth need c scope.arrayElements :=
  .past space (.itemsUntil (arrayElement_walks deeper))

theorem property_walks (c : Cursor)
    : Parser.Walks origin depth need c scope.property := by
  refine .pastEaten (.bind (assignment_walks deeper true _) fun _ _ => .pure) ?_
  refine .bind (Modifiers.parse_walks _ c) fun modifiers m => ?_
  refine .bind (propertyKey_walks deeper m) fun key m => .look ?_
  refine .ite (fun _ => .bind (functionRest_walks deeper _ _ m) fun _ _ => .pure) fun _ => ?_
  refine .ite (fun _ => .unexpected) fun _ => .pastEaten ?_ ?_
  · exact .bind (assignment_walks deeper true _) fun _ _ => .pure
  · cases key with
    | identifier name => exact .bind (.after? (assignment_walks deeper true _)) fun _ _ => .pure
    | privateName | string | number | computed => exact .unexpected

theorem properties_walks (c : Cursor)
    : Parser.Walks origin depth need c scope.properties :=
  .bind .advance fun _ _ => .commaListUntil (property_walks deeper)

theorem wordOperand_walks (word : String) (c : Cursor)
    : Parser.Walks origin depth need c (scope.wordOperand word) := by
  refine .look ?_
  split
  · exact (functionDef_walks deeper c).map
  · exact (classDef_walks deeper c).map
  · refine .bind .advance fun _ _ => .bind .eat fun _ m => .ite (fun _ => ?_) fun _ => ?_
    · exact .bind (identifier_walks m) fun _ _ => .pure
    · exact (arguments_walks deeper m).map
  iterate 5 exact .bind .advance fun _ _ => .pure
  · exact .ite (fun _ => (functionDef_walks deeper c).map) fun _ => .bind .advance fun _ _ => .pure

theorem punctuatorOperand_walks (text : String) {c : Cursor} (space : c.Spacious origin need)
    : Parser.Walks origin depth need c (scope.punctuatorOperand text) := by
  unfold punctuatorOperand
  split
  · refine .past space (.bind (expression_walks deeper true _) fun _ _ => ?_)
    exact .bind .expect fun _ _ => .pure
  · exact (arrayElements_walks deeper space).map
  · exact (properties_walks deeper c).map
  · exact .unexpected

theorem operandForm_walks (token : Token) {c : Cursor} (space : c.Spacious origin need)
    : Parser.Walks origin depth need c (scope.operandForm token) := by
  unfold operandForm
  split
  · exact wordOperand_walks deeper _ c
  iterate 4 exact .bind .advance fun _ _ => .pure
  iterate 2 exact (templateLiteral_walks deeper false c).map
  · exact punctuatorOperand_walks deeper _ space
  · exact .unexpected

theorem operand_walks (c : Cursor)
    : Parser.Walks origin depth need c scope.operand := by
  refine .bind .rereadAt fun _ m => .begin fun token here => .look ?_
  rw [here]
  exact .bind (operandForm_walks deeper token (.of_peek? here)) fun _ _ =>
    .bind .spanFrom fun _ _ => .pure

-----------------------------------------------------------------------------------------
-- Suffixes
-----------------------------------------------------------------------------------------

omit deeper in
theorem memberName_walks (c : Cursor)
    : Parser.Walks origin depth need c memberName := by
  refine .look ?_
  cases c.peek? with
  | none => exact .unexpected
  | some token => exact .ite (fun _ => .bind .advance fun _ _ => .pure) fun _ => .unexpected

theorem indexRest_walks (c : Cursor)
    : Parser.Walks origin depth (need + 2) c scope.indexRest :=
  .bind (expression_walks deeper true c) fun _ _ => .bind .expect fun _ _ => .pure

theorem suffix?_walks (allowCall : Bool) (c : Cursor)
    : Parser.Walks origin depth need c (scope.suffix? allowCall) := by
  refine .look ?_
  cases here : c.peek? with
  | none => exact .pure
  | some token =>
      have space : c.Spacious origin need := .of_peek? here
      dsimp only
      split
      iterate 2 exact .bind (templateLiteral_walks deeper true c) fun _ _ => .pure
      · split
        · exact .bind .advance fun _ m => .bind (memberName_walks m) fun _ _ => .pure
        · exact .past space (indexRest_walks deeper _).map
        · exact .ite (fun _ => .bind (arguments_walks deeper c) fun _ _ => .pure) fun _ => .pure
        · refine .ite (fun _ => .past space (.look ?_)) fun _ => .pure
          refine .ite (fun _ => .bind (arguments_walks deeper _) fun _ _ => .pure) fun _ => ?_
          refine .bind .eat fun _ m => .ite (fun _ => (indexRest_walks deeper m).map) fun _ => ?_
          exact .bind (memberName_walks m) fun _ _ => .pure
        · exact .pure
      · exact .pure

theorem suffixRound_walks (allowCall : Bool) (c : Cursor)
    : Parser.Walks origin depth need c (scope.suffixRound allowCall) := by
  refine .bind (suffix?_walks deeper allowCall c) fun found m => ?_
  cases found with
  | none => exact .pure
  | some suffix => exact .look .pure

theorem withSuffixes_walks (allowCall : Bool) (object : Expression) (c : Cursor)
    : Parser.Walks origin depth need c (scope.withSuffixes allowCall object) :=
  .bind (.rounds (suffixRound_walks deeper allowCall)) fun _ _ => .pure

-----------------------------------------------------------------------------------------
-- Constructions
-----------------------------------------------------------------------------------------

theorem callee_walks (c : Cursor)
    : Parser.Walks origin depth (need + 1) c scope.callee := by
  refine .bind .start fun _ m => .look (.ite (fun _ => ?_) fun _ => ?_)
  · exact .bind (deeper.construct _ m) fun _ m => withSuffixes_walks deeper false _ m
  · exact .bind (operand_walks deeper m) fun _ m => withSuffixes_walks deeper false _ m

theorem constructArguments_walks (c : Cursor)
    : Parser.Walks origin depth need c scope.constructArguments :=
  .look (.ite (fun _ => arguments_walks deeper c) fun _ => .pure)

theorem construct_walks (c : Cursor)
    : Parser.Walks origin depth need c scope.construct := by
  refine .begin fun token here => .past (.of_peek? here) (.bind .eat fun _ m => ?_)
  refine .ite (fun _ => ?_) fun _ => ?_
  · exact .bind (identifier_walks m) fun _ _ => .bind .spanFrom fun _ _ => .pure
  · refine .bind (callee_walks deeper m) fun _ m => .bind (constructArguments_walks deeper m) ?_
    exact fun _ _ => .bind .spanFrom fun _ _ => .pure

theorem leftHandSide_walks (c : Cursor)
    : Parser.Walks origin depth need c scope.leftHandSide := by
  refine .bind .start fun _ m => .look (.ite (fun _ => ?_) fun _ => ?_)
  · exact .bind (construct_walks deeper m) fun _ m => withSuffixes_walks deeper true _ m
  · exact .bind (operand_walks deeper m) fun _ m => withSuffixes_walks deeper true _ m

-----------------------------------------------------------------------------------------
-- Operators
-----------------------------------------------------------------------------------------

theorem postfixed_walks (c : Cursor)
    : Parser.Walks origin depth need c scope.postfixed := by
  refine .bind .start fun _ m => .bind (leftHandSide_walks deeper m) fun _ _ => .look ?_
  exact .ite (fun _ => .bind .advance fun _ _ => .bind .spanFrom fun _ _ => .pure) fun _ => .pure

theorem unaryNode_walks (c : Cursor)
    : Parser.Walks origin depth need c scope.unaryNode := by
  refine .begin fun token here => .look ?_
  rw [here]
  have operated (make : Expression → Span → Expression)
      : Parser.Walks origin depth need c (do
          Parser.advance
          let operand ← scope.unary
          let span ← Parser.spanFrom token.span.start
          pure (make operand span)) :=
    .past (.of_peek? here) (.bind (unary_walks deeper _) fun _ _ =>
      .bind .spanFrom fun _ _ => .pure)
  exact .ite (fun _ => operated _) fun _ => .ite (fun _ => operated _) fun _ =>
    postfixed_walks deeper c

theorem operation_walks (allowIn : Bool) (c : Cursor)
    : Parser.Walks origin depth need c (scope.operation allowIn) := by
  refine .bind .rereadAt fun _ m => .look ?_
  cases found : m.peek?.bind (binaryOperator? allowIn) with
  | none => exact .pure
  | some symbol =>
      obtain ⟨token, here, -⟩ := Option.bind_eq_some_iff.mp found
      exact .past (.of_peek? here) (.bind .start fun _ m => .bind (unary_walks deeper m) fun _ _ =>
        .pure)

theorem binary_walks (allowIn : Bool) (c : Cursor)
    : Parser.Walks origin depth (need + 1) c (scope.binary allowIn) :=
  .bind .start fun _ m => .bind (unary_walks deeper m) fun _ _ =>
    .bind (.rounds (operation_walks deeper allowIn)) fun _ _ => .pure

theorem conditional_walks (allowIn : Bool) (c : Cursor)
    : Parser.Walks origin depth (need + 1) c (scope.conditional allowIn) := by
  refine .bind .start fun _ m => .bind (binary_walks deeper allowIn m) fun _ m => ?_
  refine .pastEaten ?_ .pure
  refine .bind (assignment_walks deeper true _) fun _ _ => .bind .expect fun _ m => ?_
  exact .bind (assignment_walks deeper allowIn m) fun _ _ => .bind .spanFrom fun _ _ => .pure

-----------------------------------------------------------------------------------------
-- Arrow functions and assignments
-----------------------------------------------------------------------------------------

theorem arrowParams_walks (c : Cursor)
    : Parser.Walks origin depth need c scope.arrowParams :=
  .look (.ite (fun _ => params_walks deeper c) fun _ => (identifier_walks c).map)

theorem arrow_walks (allowIn isAsync : Bool) (c : Cursor)
    : Parser.Walks origin depth need c (scope.arrow allowIn isAsync) := by
  have inside : (scope.inFunction false).deeper.Walks origin depth := deeper
  refine .bind .start fun _ _ => .bind .advanceIf fun _ m => .bind (arrowParams_walks deeper m) ?_
  refine fun _ m => .pastExpected (.look (.ite (fun _ => ?_) fun _ => ?_))
  · exact .bind (functionBody_walks deeper false _) fun _ _ => .bind .markArrowEnd fun _ _ =>
      .bind .spanFrom fun _ _ => .pure
  · exact .bind (assignment_walks inside allowIn _) fun _ _ => .bind .spanFrom fun _ _ => .pure

omit deeper in
theorem delegation_walks (c : Cursor)
    : Parser.Walks origin depth need c delegation :=
  .look (.ite (fun _ => .pure) fun _ => .eat)

theorem yielded_walks (allowIn : Bool) (c : Cursor)
    : Parser.Walks origin depth need c (scope.yielded allowIn) :=
  .begin fun _ here => .past (.of_peek? here) (.bind (delegation_walks _) fun _ m =>
    .look (.bind (.onlyIf (assignment_walks deeper allowIn m)) fun _ _ =>
      .bind .spanFrom fun _ _ => .pure))

theorem assignmentNode_walks (allowIn : Bool) (c : Cursor)
    : Parser.Walks origin depth (need + 1) c (scope.assignmentNode allowIn) := by
  refine .look (.ite (fun _ => arrow_walks deeper _ _ c) fun _ => ?_)
  refine .ite (fun _ => yielded_walks deeper allowIn c) fun _ => .bind .start fun _ m => ?_
  refine .bind (conditional_walks deeper allowIn m) fun _ m => .look ?_
  refine .ite (fun operator => ?_) fun _ => .pure
  obtain ⟨token, here, -⟩ := Option.any_eq_true .. |>.mp operator
  exact .past (.of_peek? here) (.bind (assignment_walks deeper allowIn _) fun _ _ =>
    .bind .spanFrom fun _ _ => .pure)

end ScriptStyle.Grammar.Scope
