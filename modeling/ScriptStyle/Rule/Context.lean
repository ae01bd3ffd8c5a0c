import ScriptStyle.Diagnostic
import ScriptStyle.ParsedSource
import ScriptStyle.Text.Lines
import ScriptStyle.Tree.Walk

/-!
What rules know of a source while they look at the parts of its tree.
-/

namespace ScriptStyle

/-- A source with its tokens, its lines and the ends of its arrow functions. -/
structure RuleContext where
  text : List Char
  tokens : Array Token
  lines : Text.LineIndex
  arrowEnds : List Nat

namespace RuleContext

/-- The context of a parsed source. -/
def ofSource (parsed : ParsedSource) : RuleContext where
  text := parsed.source.toList
  tokens := parsed.tokens
  lines := Text.LineIndex.ofText parsed.source.toList
  arrowEnds := parsed.arrowEnds

/-- The characters in a span. -/
def slice (context : RuleContext) (span : Span) : List Char :=
  Text.slice context.text span.start span.stop

/-- A violation at the start of a span. -/
def diagnostic (context : RuleContext) (problem : Problem) (wanted : Option QuoteStyle)
    (span : Span) (fix : Option Edit) : Diagnostic where
  problem := problem
  wanted := wanted
  span := span
  line := context.lines.lineAt span.start
  column := context.lines.columnAt span.start
  fix := fix

end RuleContext

end ScriptStyle
