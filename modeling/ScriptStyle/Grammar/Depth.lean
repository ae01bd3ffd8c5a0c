import ScriptStyle.Grammar.Statement

/-!
The grammar with a limit on nesting. Constructs at one depth are made of constructs at the
next, and there are none below the last.
-/

namespace ScriptStyle.Grammar

/-- Fails because the current construct lies inside too many others. -/
def tooDeep {α : Type} : Parser α := fun cursor =>
  .error (.nestingTooDeep cursor.offset)

namespace Level

/-- The level below the last: every construct is nested too deeply. -/
def bottom : Level where
  statement _ := tooDeep
  assignment _ _ := tooDeep
  unary _ := tooDeep
  heritage _ := tooDeep
  construct _ := tooDeep

/-- The level above another. -/
def above (deeper : Level) : Level where
  statement inGenerator := Scope.statementNode ⟨deeper, inGenerator⟩
  assignment inGenerator allowIn := Scope.assignmentNode ⟨deeper, inGenerator⟩ allowIn
  unary inGenerator := Scope.unaryNode ⟨deeper, inGenerator⟩
  heritage inGenerator := Scope.leftHandSide ⟨deeper, inGenerator⟩
  construct inGenerator := Scope.construct ⟨deeper, inGenerator⟩

/-- The level with the given number of levels from it down to the last. -/
def ofDepth : Nat → Level
  | 0 => bottom
  | depth + 1 => (ofDepth depth).above

end Level

/-- The number of levels that a construct may be nested. -/
def maxDepth : Nat := 256

/-- The scope of the statements of a program. -/
def Scope.top : Scope := ⟨Level.ofDepth maxDepth, false⟩

/-- A statement of a program, unless the source ends. -/
def statementRound : Parser (Parser.Round Statement) := do
  match (← get).peek? with
  | none => pure .stop
  | some _ => Parser.Round.more <$> Scope.top.statement

/-- The statements of a program, up to the end of the source. -/
def statements : Parser (List Statement) :=
  Parser.rounds statementRound

/-- A program: statements up to the end of the source, which the tokens must reach. -/
def program : Parser Program := do
  let body ← statements
  let cursor ← get
  match cursor.fault with
  | some fault => throw fault
  | none => pure ⟨markBody body, ⟨0, cursor.sourceLength⟩⟩

end ScriptStyle.Grammar
