import ScriptStyle.Proofs.Literal.Escapes
import ScriptStyle.Proofs.Literal.RequotedValue
import ScriptStyle.Proofs.Rule.Findings

/-!
Escapes are read alike wherever the rule on quotes looks for them, and a template that the rule
has requoted breaks no line other than by an escape.
-/

namespace ScriptStyle

-----------------------------------------------------------------------------------------
-- The templates that are requoted
-----------------------------------------------------------------------------------------

namespace Quotes

variable (context : RuleContext) (options : QuoteOptions) (literal : TemplateLiteral)
  (site : LiteralSite)

/-- Whether the rule has a template requoted: one that could be a string, and none of whose
pieces goes over several lines. -/
def requotes : Bool :=
  !(options.style == .backtick || options.templates == .always || literal.isTagged
      || !literal.substitutions.isEmpty)
    && !literal.quasis.any fun quasi => Literal.spansLines (context.slice quasi)

/-- The violation by a template, from what other quotes make of it. -/
def judged : Literal.Requoted → Option Diagnostic
  | .kept => none
  | .impossible => some (report context options literal.span none)
  | .rewritten text =>
      some (report context options literal.span
        (if isBodyStatement site then
          none
        else
          some ⟨literal.span, text, some "template to string"⟩))

/-- The rule judges a template by its requoting, and lets it pass where it has none. -/
theorem checkTemplate?_eq
    : checkTemplate? context options literal site
      = if requotes context options literal then
          judged context options literal site
            (Literal.requote (context.slice literal.span) .backtick options.style
              (options.templates == .avoidEscape))
        else
          none := by
  rw [checkTemplate?, requotes]
  split
  · next exempt => simp [exempt]
  · next unclosed =>
      split
      · next broken => simp [broken]
      · next whole =>
          rw [Bool.eq_false_iff.mpr unclosed, Bool.eq_false_iff.mpr whole]
          simp only [Bool.not_false, Bool.and_self, if_true]
          split <;> rename_i outcome <;> rw [outcome] <;> rfl

end Quotes

-----------------------------------------------------------------------------------------
-- The text of a template
-----------------------------------------------------------------------------------------

/-- In a text that holds a literal, the literal and its body are at the span of the literal and
between its quotes. -/
theorem Literal.slice_enclose {style : QuoteStyle} (before body after : List Char) {span : Span}
    (opens : span.start = Text.byteLength before)
    (closes : span.stop = span.start + Text.byteLength (style.enclose body))
    : Text.slice (before ++ (style.enclose body ++ after)) span.start span.stop = style.enclose body
      ∧ Text.slice (before ++ (style.enclose body ++ after)) (span.shrink 1 1).start
          (span.shrink 1 1).stop = body := by
  constructor
  · rw [closes, opens]
    exact Text.slice_append ..
  · have single : style.quote.utf8Size = 1 := by cases style <;> rfl
    have inside := Text.slice_append (before ++ [style.quote]) body (style.quote :: after)
    simp only [QuoteStyle.enclose, Text.byteLength_cons, Text.byteLength_append,
      Text.byteLength_nil, single] at closes inside
    rw [← List.append_cons] at inside
    convert inside using 2
    · simp [QuoteStyle.enclose]
    · simp [Span.shrink, opens]
    · simp [Span.shrink, closes, opens]
      omega

namespace ParsedSource.Read

variable {parsed : ParsedSource} {literal : TemplateLiteral} {site : LiteralSite}

/-- A template without substitutions is its one piece in backticks. -/
theorem template_enclosed (read : parsed.Read)
    (shown : .template literal site ∈ parsed.program.shown) (empty : literal.substitutions = [])
    : ∃ body quasi, literal.quasis = [quasi]
        ∧ (RuleContext.ofSource parsed).slice quasi = body
        ∧ (RuleContext.ofSource parsed).slice literal.span = QuoteStyle.backtick.enclose body := by
  have listed : (.template, literal.span) ∈ literalTokens parsed.program.shown :=
    List.mem_filterMap.mpr ⟨_, shown, by simp [Shown.literal?, empty]⟩
  obtain ⟨token, present, kind, span⟩ := read.token_of_literal listed (.inr rfl)
  obtain ⟨stop, trail⟩ := read.trail
  obtain ⟨before, after, split, opens, closes⟩ := trail.cut present
  obtain ⟨front, back, parts⟩ := List.append_of_mem present
  rw [parts] at trail
  obtain ⟨middle, -, behind⟩ := trail.of_append
  cases behind with
  | cons next _ =>
      obtain ⟨style, body, spelled, -, sort⟩ := Scanner.literal_of_next next (.inr kind)
      obtain rfl : style = .backtick := by
        cases style <;> simp_all [QuoteStyle.tokenKind]
      have quoted := (read.grounded _ shown).template literal site rfl
      rw [spelled] at split closes
      have source : parsed.source.toList
          = before ++ (QuoteStyle.backtick.enclose body ++ after) := split
      have start : literal.span.start = Text.byteLength before := by
        rw [← span, opens]
        exact Nat.zero_add _
      obtain ⟨whole, inside⟩ := Literal.slice_enclose before body after start (span ▸ closes)
      rw [← source] at whole inside
      exact ⟨body, _, quoted.whole empty, inside, whole⟩

/-- A template that the rule has requoted breaks no line as it stands. -/
theorem unbroken_of_requotes (read : parsed.Read) {options : QuoteOptions}
    (shown : .template literal site ∈ parsed.program.shown)
    (requoted : Quotes.requotes (.ofSource parsed) options literal) {c : Char}
    (plain : .plain c ∈ Literal.pieces
      (Literal.inner ((RuleContext.ofSource parsed).slice literal.span)))
    : Text.isLineTerminator c = false := by
  simp only [Quotes.requotes, Bool.and_eq_true, Bool.not_eq_true', Bool.or_eq_false_iff,
    List.isEmpty_iff, Bool.not_eq_false'] at requoted
  obtain ⟨⟨-, empty⟩, whole⟩ := requoted
  obtain ⟨body, quasi, single, sliced, enclosed⟩ := read.template_enclosed shown empty
  rw [enclosed, Literal.inner_enclose] at plain
  rw [single, List.any_cons, List.any_nil, Bool.or_false, sliced] at whole
  by_contra ends
  rw [Literal.spansLines_iff.mpr ⟨c, plain, by simpa using ends⟩] at whole
  cases whole

end ParsedSource.Read

-----------------------------------------------------------------------------------------
-- One reading of escapes
-----------------------------------------------------------------------------------------

/-- The patterns and the scans find in a text what its pieces say. -/
structure Literal.EscapesAgree (text : List Char) : Prop where
  octalPattern : octalPattern.FoundIn text ↔ HasOctalPiece (pieces text)
  octalScan : hasOctalEscape text ↔ HasOctalPiece (pieces text)
  breakPattern
    : breakPattern.FoundIn (joinLineBreaks text)
      ↔ ∃ c, .plain c ∈ pieces text ∧ Text.isLineTerminator c
  breakScan : spansLines text ↔ ∃ c, .plain c ∈ pieces text ∧ Text.isLineTerminator c

/-- Escapes are found alike by pattern, by scan and piece by piece, in every text. So a template of
a source that the rule on quotes has requoted, which is the only way to a violation, holds line
terminators in escapes only. -/
theorem escapes_agree
    : (∀ text, Literal.EscapesAgree text)
      ∧ ∀ source parsed, parse source = .ok parsed → ∀ options literal site,
          .template literal site ∈ parsed.program.shown →
            (Quotes.checkTemplate? (.ofSource parsed) options literal site
              = if Quotes.requotes (.ofSource parsed) options literal then
                  Quotes.judged (.ofSource parsed) options literal site
                    (Literal.requote ((RuleContext.ofSource parsed).slice literal.span) .backtick
                      options.style (options.templates == .avoidEscape))
                else
                  none)
            ∧ (Quotes.requotes (.ofSource parsed) options literal → ∀ c,
                .plain c ∈ Literal.pieces
                  (Literal.inner ((RuleContext.ofSource parsed).slice literal.span)) →
                Text.isLineTerminator c = false) := by
  constructor
  · intro text
    exact {
      octalPattern := Literal.foundIn_octalPattern_iff.trans Literal.hasOctalEscape_iff
      octalScan := Literal.hasOctalEscape_iff
      breakPattern := Literal.foundIn_breakPattern_iff.trans Literal.spansLines_iff
      breakScan := Literal.spansLines_iff }
  · intro source parsed run options literal site shown
    refine ⟨Quotes.checkTemplate?_eq .., fun requoted c plain => ?_⟩
    exact (ParsedSource.read_of_parse run).unbroken_of_requotes shown requoted plain

/-- A template with an escaped CR LF pair, which is requoted. -/
theorem escapes_agree_of_escaped_pair
    : ∃ parsed literal site, parse "x = `a\\\r\nb`" = .ok parsed
        ∧ .template literal site ∈ parsed.program.shown
        ∧ Quotes.requotes (.ofSource parsed) { style := .single } literal
        ∧ ∀ c, .plain c ∈ Literal.pieces
            (Literal.inner ((RuleContext.ofSource parsed).slice literal.span)) →
          Text.isLineTerminator c = false := by
  have found : (parse "x = `a\\\r\nb`").toOption.map (fun parsed => parsed.program.shown.any fun
      | .template literal _ => Quotes.requotes (.ofSource parsed) { style := .single } literal
      | _ => false) = some true := by
    decide +kernel
  obtain ⟨parsed, run, some⟩ := exists_ok_of_toOption_map found
  obtain ⟨part, shown, requoted⟩ := List.any_eq_true.mp some
  cases part with
  | string | statement | classMember => cases requoted
  | template literal site =>
      exact ⟨parsed, literal, site, run, shown, requoted,
        (escapes_agree.2 _ parsed run _ literal site shown).2 requoted⟩

end ScriptStyle
