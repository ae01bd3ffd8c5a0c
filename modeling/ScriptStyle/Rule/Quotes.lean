import ScriptStyle.Literal.Requote
import ScriptStyle.Rule.Context

/-!
The rule on quotes: string literals, and template literals that could be strings, have the
quotes of the style.
-/

namespace ScriptStyle.Quotes

/-- Whether the grammar takes a string literal at a site and no template literal. -/
def requiresString : LiteralSite → Bool
  | .statement directive _ => directive
  | .propertyKey | .moduleSource | .moduleName => true
  | .expression => false

/-- A violation by a literal. -/
def report (context : RuleContext) (options : QuoteOptions) (span : Span) (fix : Option Edit)
    : Diagnostic :=
  context.diagnostic .wrongQuotes (some options.style) span fix

/-- The violation by a string literal, if there is one. -/
def checkString? (context : RuleContext) (options : QuoteOptions) (span : Span)
    (site : LiteralSite) : Option Diagnostic :=
  if options.style == .backtick && requiresString site then
    none
  else if options.style != .backtick && options.ignoreStrings then
    none
  else
    let raw := context.slice span
    match QuoteStyle.ofLiteral? raw with
    | none => none
    | some current =>
        match Literal.requote raw current options.style options.avoidEscape with
        | .kept => none
        | .impossible => some (report context options span none)
        | .rewritten text =>
            some (report context options span (some ⟨span, text, some "requote string"⟩))

/-- Whether a site is an element of a program or function body, where a string could become
a directive. -/
def isBodyStatement : LiteralSite → Bool
  | .statement _ bodyLevel => bodyLevel
  | _ => false

/-- The violation by a template literal, if there is one. -/
def checkTemplate? (context : RuleContext) (options : QuoteOptions) (literal : TemplateLiteral)
    (site : LiteralSite) : Option Diagnostic :=
  if options.style == .backtick || options.templates == .always || literal.isTagged
      || !literal.substitutions.isEmpty then
    none
  else if literal.quasis.any fun quasi => Literal.spansLines (context.slice quasi) then
    none
  else
    let raw := context.slice literal.span
    match Literal.requote raw .backtick options.style (options.templates == .avoidEscape) with
    | .kept => none
    | .impossible => some (report context options literal.span none)
    | .rewritten text =>
        let fix : Edit := ⟨literal.span, text, some "template to string"⟩
        some (report context options literal.span (if isBodyStatement site then none else some fix))

/-- The violation by a part of a tree, if there is one. -/
def check? (context : RuleContext) (options : QuoteOptions) : Shown → Option Diagnostic
  | .string span site => checkString? context options span site
  | .template literal site => checkTemplate? context options literal site
  | .statement _ _ | .classMember _ _ => none

end ScriptStyle.Quotes
