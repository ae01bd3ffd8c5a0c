import ScriptStyle.Tree

/-!
Directive prologues. The body of a program or function may begin with string literals that
stand alone as statements; these are directives and not values. The statements of a body are
marked once the body is complete.
-/

namespace ScriptStyle

/-- Whether a statement is a string literal that stands alone, without parentheses. -/
def Statement.isDirectiveShaped : Statement → Bool
  | .expression (.string _) _ => true
  | _ => false

/-- A statement as an element of a body, marked as a directive or not. -/
def Statement.markedAs (isDirective : Bool) (statement : Statement) : Statement :=
  statement.withPlacement ⟨statement.extent, isDirective, true⟩

/-- The statements of a body with their marks. The prologue ends at the first statement that
is no string literal alone; the flag tells whether it has not ended before. -/
def markStatements (inPrologue : Bool) : List Statement → List Statement
  | [] => []
  | statement :: others =>
      let isDirective := inPrologue && statement.isDirectiveShaped
      statement.markedAs isDirective :: markStatements isDirective others

/-- The statements of a program or function body with their marks. -/
def markBody (body : List Statement) : List Statement :=
  markStatements true body

/-- A block whose statements are marked as those of a function body. -/
def Block.asBody (block : Block) : Block :=
  ⟨markBody block.body, block.span⟩

end ScriptStyle
