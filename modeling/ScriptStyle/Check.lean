import ScriptStyle.Diagnostic.Merge
import ScriptStyle.Edit.Rewrite
import ScriptStyle.Rule.Quotes
import ScriptStyle.Rule.Semicolons

/-!
Checking one source against a style, and fixing what can be fixed in it.
-/

namespace ScriptStyle

namespace Style

/-- The rules that a style applies, in order. -/
def rules (style : Style) : List RuleId :=
  (if style.quotes.isSome then [RuleId.quotes] else [])
    ++ (if style.semicolons.isSome then [RuleId.semicolons] else [])

/-- The violations of a style by a part of a tree, in the order of the rules. -/
def checkPart (style : Style) (context : RuleContext) (part : Shown) : List Diagnostic :=
  (style.quotes.bind fun options => Quotes.check? context options part).toList
    ++ (style.semicolons.bind fun options => Semicolons.check? context options part).toList

/-- The violations of a style by a parsed source, in the order in which they are found. -/
def findings (style : Style) (parsed : ParsedSource) : List Diagnostic :=
  parsed.program.shown.flatMap (style.checkPart (RuleContext.ofSource parsed))

/-- The violations of a style by a source in the order of the source, and the edits that repair
as many of them as can be repaired together. -/
def check (style : Style) (source : String) : Except SyntaxError MergedFixes := do
  let parsed ← parse source
  pure (MergedFixes.ofDiagnostics (style.findings parsed))

end Style

/-- A source after fixing. -/
structure FixedSource where
  output : String
  /-- The number of edits that were made. -/
  fixCount : Nat
  /-- The violations that are left in the output. -/
  remaining : List Diagnostic
deriving DecidableEq, Repr

namespace Style

/-- A source with edits made to it, or why they cannot be made. -/
def rewrite (source : String) (edits : List Edit) : Except RewriteError String :=
  (Edit.applyAll source.toList edits).map String.ofList

/-- Makes edits and checks again, at most the given number of times. A pass whose output is no
script is not made. -/
def fixPasses (style : Style) : Nat → FixedSource → List Edit → FixedSource
  | 0, state, _ => state
  | passes + 1, state, edits =>
      if edits.isEmpty then
        state
      else
        match rewrite state.output edits with
        | .error _ => state
        | .ok candidate =>
            match style.check candidate with
            | .error _ => state
            | .ok report =>
                fixPasses style passes
                  ⟨candidate, state.fixCount + edits.length, report.diagnostics⟩ report.edits

/-- The most passes that are made over one source. -/
def maxFixPasses : Nat := 10

/-- A source with its violations repaired as far as possible. -/
def fix (style : Style) (source : String) : Except SyntaxError FixedSource := do
  let report ← style.check source
  pure (style.fixPasses maxFixPasses ⟨source, 0, report.diagnostics⟩ report.edits)

end Style

end ScriptStyle
