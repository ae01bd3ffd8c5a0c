import ScriptStyle.Edit
import ScriptStyle.Style

/-!
Violations of a style, each with the edit that repairs it where there is a safe one.
-/

namespace ScriptStyle

/-- The rules of a style, in the order in which they are applied. -/
inductive RuleId where
  | quotes
  | semicolons
deriving DecidableEq, Repr, Inhabited

namespace RuleId

/-- All rules. -/
def all : List RuleId := [quotes, semicolons]

/-- The word for a rule in settings and reports. -/
def name : RuleId → String
  | quotes => "quotes"
  | semicolons => "semi"

/-- The title of a rule. -/
def title : RuleId → String
  | quotes => "QuotesRule"
  | semicolons => "SemiRule"

/-- The group of rules that a rule belongs to. -/
def category : RuleId → String
  | quotes | semicolons => "Style"

end RuleId

/-- The kinds of violations. -/
inductive Problem where
  /-- A literal has the wrong quotes. -/
  | wrongQuotes
  /-- A statement or field lacks its semicolon. -/
  | missingSemicolon
  /-- A statement or field has a semicolon that it should not have. -/
  | extraSemicolon
deriving DecidableEq, Repr, Inhabited

namespace Problem

/-- All kinds. -/
def all : List Problem := [wrongQuotes, missingSemicolon, extraSemicolon]

/-- The word for a kind in reports. -/
def name : Problem → String
  | wrongQuotes => "wrongQuotes"
  | missingSemicolon => "missingSemi"
  | extraSemicolon => "extraSemi"

/-- The rule that finds a kind. -/
def rule : Problem → RuleId
  | wrongQuotes => .quotes
  | missingSemicolon | extraSemicolon => .semicolons

/-- The place in a message where the wanted quotes are named. -/
def placeholder : String := "\x7bdescription\x7d"

/-- The message of a kind, in which the wanted quotes are named by the given words. -/
def message (wanted : String) : Problem → String
  | wrongQuotes => "Strings must use " ++ wanted ++ "."
  | missingSemicolon => "Missing semicolon."
  | extraSemicolon => "Extra semicolon."

end Problem

/-- A violation at a place in a source. -/
structure Diagnostic where
  problem : Problem
  /-- The quotes that are wanted instead. -/
  wanted : Option QuoteStyle
  span : Span
  line : Nat
  column : Nat
  fix : Option Edit
deriving DecidableEq, Repr, Inhabited

namespace Diagnostic

/-- The rule that was violated. -/
def rule (diagnostic : Diagnostic) : RuleId :=
  diagnostic.problem.rule

/-- The words for the quotes that are wanted. -/
def description (diagnostic : Diagnostic) : Option String :=
  diagnostic.wanted.map QuoteStyle.description

/-- The message of a violation. -/
def message (diagnostic : Diagnostic) : String :=
  diagnostic.problem.message (diagnostic.description.getD Problem.placeholder)

/-- Whether a violation has a fix. -/
def isFixable (diagnostic : Diagnostic) : Bool :=
  diagnostic.fix.isSome

end Diagnostic

/-- The number of violations that have a fix. -/
def fixableCount (diagnostics : List Diagnostic) : Nat :=
  diagnostics.countP Diagnostic.isFixable

end ScriptStyle
