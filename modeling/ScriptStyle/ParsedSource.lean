import ScriptStyle.Grammar.Depth

/-!
A source with its tokens and its tree.
-/

namespace ScriptStyle

/-- What rules know of a source. -/
structure ParsedSource where
  source : String
  /-- All tokens, comments included. -/
  tokens : Array Token
  program : Program
  /-- The indices of the braces that close the bodies of arrow functions, in order. -/
  arrowEnds : List Nat

/-- Reads a source, with the given guess for slashes. -/
def parseWith (guess : SlashGuess) (source : String) : Except SyntaxError ParsedSource := do
  let list ← TokenList.ofSourceWith guess source
  let start := Grammar.Cursor.ofTokens list source.utf8ByteSize
  let (program, cursor) ← Grammar.program start
  pure { source, tokens := cursor.tokens, program, arrowEnds := cursor.arrowEnds.reverse }

/-- Reads a source. -/
def parse (source : String) : Except SyntaxError ParsedSource :=
  parseWith SlashGuess.standard source

end ScriptStyle
