import ScriptStyle.Proofs.Grammar.Progress.Basic

/-!
How the parsers of functions and classes walk over the tokens, and those that all constructs are
made of.
-/

namespace ScriptStyle.Grammar

open ScriptStyle.Grammar.Parser

variable {origin : Scanner} {depth need : Nat}

-----------------------------------------------------------------------------------------
-- Levels
-----------------------------------------------------------------------------------------

/-- How many levels the constructs of a level need, itself included: an expression begins with an
operand, and a statement with an expression, before a token is taken. -/
structure Level.Walks (origin : Scanner) (depth : Nat) (level : Level) : Prop where
  statement (inGenerator : Bool) {need : Nat} (c : Cursor)
    : Parser.Walks origin depth (need + 3) c (level.statement inGenerator)
  assignment (inGenerator allowIn : Bool) {need : Nat} (c : Cursor)
    : Parser.Walks origin depth (need + 2) c (level.assignment inGenerator allowIn)
  unary (inGenerator : Bool) {need : Nat} (c : Cursor)
    : Parser.Walks origin depth (need + 1) c (level.unary inGenerator)
  heritage (inGenerator : Bool) {need : Nat} (c : Cursor)
    : Parser.Walks origin depth (need + 1) c (level.heritage inGenerator)
  construct (inGenerator : Bool) {need : Nat} (c : Cursor)
    : Parser.Walks origin depth (need + 1) c (level.construct inGenerator)

theorem identifier_walks (c : Cursor)
    : Parser.Walks origin depth need c identifier := by
  refine .look ?_
  cases c.peek? with
  | none => exact .unexpected
  | some token => exact .ite (fun _ => .bind .advance fun _ _ => .pure) fun _ => .unexpected

theorem Modifiers.parse_walks (nameEnds : List String) (c : Cursor)
    : Parser.Walks origin depth need c (Modifiers.parse nameEnds) :=
  .look (.bind .advanceIf fun _ _ => .bind .eat fun _ _ => .look (.bind .advanceIf fun _ _ => .pure))

namespace Scope

variable {scope : Scope} (deeper : scope.deeper.Walks origin depth)

include deeper

-----------------------------------------------------------------------------------------
-- Lists and blocks
-----------------------------------------------------------------------------------------

theorem statement_walks (c : Cursor)
    : Parser.Walks origin depth (need + 3) c scope.statement :=
  deeper.statement _ c

theorem assignment_walks (allowIn : Bool) (c : Cursor)
    : Parser.Walks origin depth (need + 2) c (scope.assignment allowIn) :=
  deeper.assignment _ allowIn c

theorem unary_walks (c : Cursor)
    : Parser.Walks origin depth (need + 1) c scope.unary :=
  deeper.unary _ c

theorem expression_walks (allowIn : Bool) (c : Cursor)
    : Parser.Walks origin depth (need + 2) c (scope.expression allowIn) := by
  refine .bind .start fun start _ => .bind (.commaSeparated (assignment_walks deeper allowIn)) ?_
  intro items m
  split
  · exact .pure
  · exact .bind .spanFrom fun _ _ => .pure

theorem parenthesized_walks (c : Cursor)
    : Parser.Walks origin depth need c scope.parenthesized :=
  .pastExpected (.bind (expression_walks deeper true _) fun _ _ =>
    .bind .expect fun _ _ => .pure)

theorem spreadOrAssignment_walks (c : Cursor)
    : Parser.Walks origin depth (need + 2) c scope.spreadOrAssignment :=
  .look (.ite
    (fun _ => .bind .start fun _ _ => .bind .advance fun _ m =>
      .bind (assignment_walks deeper true m) fun _ _ => .bind .spanFrom fun _ _ => .pure)
    fun _ => assignment_walks deeper true c)

theorem arguments_walks (c : Cursor)
    : Parser.Walks origin depth need c scope.arguments :=
  .pastExpected (.commaListUntil (spreadOrAssignment_walks deeper))

theorem params_walks (c : Cursor)
    : Parser.Walks origin depth need c scope.params :=
  .pastExpected (.commaListUntil (spreadOrAssignment_walks deeper))

theorem block_walks (c : Cursor)
    : Parser.Walks origin depth need c scope.block :=
  .bind .start fun _ _ => .pastExpected (.bind (.itemsUntil (statement_walks deeper)) fun _ _ =>
    .bind .spanFrom fun _ _ => .pure)

-----------------------------------------------------------------------------------------
-- Functions
-----------------------------------------------------------------------------------------

theorem functionBody_walks (isGenerator : Bool) (c : Cursor)
    : Parser.Walks origin depth need c (scope.functionBody isGenerator) := by
  have inside : (scope.inFunction isGenerator).deeper.Walks origin depth := deeper
  exact .map (block_walks inside c)

theorem functionRest_walks (isAsync isGenerator : Bool) (c : Cursor)
    : Parser.Walks origin depth need c (scope.functionRest isAsync isGenerator) :=
  .bind (params_walks deeper c) fun _ m =>
    .bind (functionBody_walks deeper isGenerator m) fun _ _ => .pure

theorem functionDef_walks (c : Cursor)
    : Parser.Walks origin depth need c scope.functionDef :=
  .bind .eat fun isAsync _ => .bind .expect fun _ _ => .bind .eat fun isGenerator m =>
    .look (.bind (.onlyIf (identifier_walks m)) fun _ m =>
      functionRest_walks deeper isAsync isGenerator m)

-----------------------------------------------------------------------------------------
-- Classes
-----------------------------------------------------------------------------------------

theorem propertyKey_walks (c : Cursor)
    : Parser.Walks origin depth need c scope.propertyKey := by
  refine .look ?_
  cases here : c.peek? with
  | none => exact .endOfInput
  | some token =>
      dsimp only
      split
      iterate 4 exact .bind .advance fun _ _ => .pure
      · refine .ite (fun _ => .past (.of_peek? here) ?_) fun _ => .unexpected
        exact .bind (assignment_walks deeper true _) fun _ _ => .bind .expect fun _ _ => .pure
      · exact .unexpected

theorem memberDefinition_walks (isStatic : Bool) (c : Cursor)
    : Parser.Walks origin depth need c (scope.memberDefinition isStatic) := by
  refine .bind (Modifiers.parse_walks _ c) fun modifiers m => ?_
  refine .bind (propertyKey_walks deeper m) fun key m => .look ?_
  refine .ite (fun _ => .bind (functionRest_walks deeper _ _ m) fun _ _ => .pure) fun _ => ?_
  refine .ite (fun _ => .unexpected) fun _ => ?_
  refine .bind (.after? (assignment_walks deeper true _)) fun _ _ => ?_
  exact .bind .consumeSemicolon fun _ _ => .pure

theorem memberForm_walks (c : Cursor)
    : Parser.Walks origin depth need c scope.memberForm := by
  refine .bind .eat fun _ m => .ite (fun _ => .pure) fun _ => .look (.ite (fun _ => ?_) fun _ => ?_)
  · exact .bind .advance fun _ m => .bind (block_walks deeper m) fun _ _ => .pure
  · exact .bind .advanceIf fun _ m => memberDefinition_walks deeper _ m

theorem classMember_walks (c : Cursor)
    : Parser.Walks origin depth need c scope.classMember :=
  .look (.bind .start fun _ m => .bind (memberForm_walks deeper m) fun _ _ =>
    .bind .extentFrom fun _ _ => .pure)

theorem classDef_walks (c : Cursor)
    : Parser.Walks origin depth need c scope.classDef :=
  .bind .expect fun _ _ => .look (.bind .advanceIf fun _ m =>
    .bind (.after? (deeper.heritage _ m.advance)) fun _ _ => .bind .start fun _ _ =>
      .bind .expect fun _ _ => .bind (.itemsUntil (classMember_walks deeper)) fun _ _ =>
        .bind .spanFrom fun _ _ => .pure)

end Scope

end ScriptStyle.Grammar
