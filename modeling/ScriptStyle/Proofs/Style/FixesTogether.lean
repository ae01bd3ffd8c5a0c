import Mathlib.Data.List.Nodup
import Mathlib.Data.List.Perm.Basic
import ScriptStyle.Proofs.Rule.Findings

/-!
The fixes of all rules can be made together. Merging them drops none, no two of them conflict,
the text takes them, and neither rule changes what the other finds.
-/

namespace ScriptStyle

open MergedFixes (inOrder editsInOrder)

namespace Style

variable {style : Style} {parsed : ParsedSource}

/-- What the rule on quotes finds in a parsed source. -/
def quoteFindings (style : Style) (parsed : ParsedSource) : List Diagnostic :=
  parsed.program.shown.filterMap fun part =>
    style.quotes.bind fun options => Quotes.check? (.ofSource parsed) options part

/-- What the rule on semicolons finds in a parsed source. -/
def semicolonFindings (style : Style) (parsed : ParsedSource) : List Diagnostic :=
  parsed.program.shown.filterMap fun part =>
    style.semicolons.bind fun options => Semicolons.check? (.ofSource parsed) options part

/-- Together the rules find what each of them finds. -/
theorem findings_perm (style : Style) (parsed : ParsedSource)
    : (style.findings parsed).Perm (style.quoteFindings parsed ++ style.semicolonFindings parsed) := by
  rw [quoteFindings, semicolonFindings, List.filterMap_eq_flatMap_toList,
    List.filterMap_eq_flatMap_toList]
  exact (List.flatMap_append_perm ..).symm

/-- A rule alone finds what it finds beside another. -/
theorem findings_quotes (style : Style) (parsed : ParsedSource)
    : findings { style with semicolons := none } parsed = style.quoteFindings parsed := by
  rw [findings, quoteFindings, List.filterMap_eq_flatMap_toList]
  exact List.flatMap_congr fun part _ => List.append_nil _

theorem findings_semicolons (style : Style) (parsed : ParsedSource)
    : findings { style with quotes := none } parsed = style.semicolonFindings parsed := by
  rw [findings, semicolonFindings, List.filterMap_eq_flatMap_toList]
  rfl

/-- A source that parses is checked. -/
theorem check_of_parse (style : Style) {source : String} (run : parse source = .ok parsed)
    : style.check source = .ok (.ofDiagnostics (style.findings parsed)) := by
  rw [check, run]
  rfl

-----------------------------------------------------------------------------------------
-- Findings lie apart
-----------------------------------------------------------------------------------------

/-- A finding of the rule on quotes is on a literal of the tree. -/
theorem literal_of_quoteFinding {found : Diagnostic} (member : found ∈ style.quoteFindings parsed)
    : ∃ kind, (kind, found.span) ∈ literalTokens parsed.program.shown
        ∧ (kind = .string ∨ kind = .template)
        ∧ ∀ fix, found.fix = some fix → fix.span = found.span := by
  obtain ⟨part, shown, check⟩ := List.mem_filterMap.mp member
  obtain ⟨options, -, check⟩ := Option.bind_eq_some_iff.mp check
  obtain ⟨kind, literal, known⟩ := Quotes.report_of_check check
  exact ⟨kind, List.mem_filterMap.mpr ⟨part, shown, literal⟩, known⟩

/-- A finding of the rule on semicolons is on the last token of a construct, which is a semicolon,
or on the place behind it, where there is none. -/
theorem ending_of_semicolonFinding {found : Diagnostic}
    (member : found ∈ style.semicolonFindings parsed)
    : ∃ part ∈ parsed.program.shown, ∃ extent last, part.ending? = some extent
        ∧ parsed.tokens.toList[extent.tokens.last]? = some last
        ∧ (last.isPunctuator ";" ∧ found = Semicolons.extra (.ofSource parsed) last
          ∨ last.isPunctuator ";" = false ∧ found = Semicolons.missing (.ofSource parsed) last) := by
  obtain ⟨part, shown, check⟩ := List.mem_filterMap.mp member
  obtain ⟨options, -, check⟩ := Option.bind_eq_some_iff.mp check
  obtain ⟨extent, last, ending, here, report⟩ := Semicolons.report_of_check check
  exact ⟨part, shown, extent, last, ending, (ParsedSource.getElem?_tokens _).trans here, report⟩

/-- A report on the last token of a construct is on the token or on the place behind it. -/
theorem tail_of_report {start stop : Scanner} {tokens : List Token}
    (trail : Trail start tokens stop) {index : Nat} {last : Token} {found : Diagnostic}
    {context : RuleContext} (here : tokens[index]? = some last)
    (report : last.isPunctuator ";" ∧ found = Semicolons.extra context last
      ∨ last.isPunctuator ";" = false ∧ found = Semicolons.missing context last)
    : found.span.IsTail last.span := by
  have bounds := trail.bounds (List.mem_of_getElem? here)
  rcases report with ⟨-, rfl⟩ | ⟨-, rfl⟩
  · exact ⟨Nat.le_refl _, by simp only [Semicolons.extra, RuleContext.diagnostic]; omega, rfl⟩
  · exact ⟨by simp only [Semicolons.missing, RuleContext.diagnostic]; omega, Nat.le_refl _, rfl⟩

section Apart

variable (read : parsed.Read)

include read

theorem quoteFindings_apart
    : (style.quoteFindings parsed).Pairwise fun first second => first.span.Apart second.span := by
  refine List.pairwise_filterMap.mpr ((List.pairwise_filterMap.mp read.literals_apart).imp ?_)
  intro part other apart found check found' check'
  obtain ⟨options, -, check⟩ := Option.bind_eq_some_iff.mp check
  obtain ⟨options', -, check'⟩ := Option.bind_eq_some_iff.mp check'
  obtain ⟨kind, literal, -⟩ := Quotes.report_of_check check
  obtain ⟨kind', literal', -⟩ := Quotes.report_of_check check'
  exact apart _ literal _ literal'

/-- The last tokens of the constructs of a tree differ. -/
theorem endings_distinct
    : parsed.program.shown.Pairwise fun part other => ∀ extent, part.ending? = some extent
        → ∀ extent', other.ending? = some extent' → extent.tokens.last ≠ extent'.tokens.last := by
  refine (List.pairwise_filterMap.mp read.ends).imp fun differ extent ending extent' ending' => ?_
  exact differ _ (by rw [ending]; rfl) _ (by rw [ending']; rfl)

theorem semicolonFindings_apart
    : (style.semicolonFindings parsed).Pairwise
        fun first second => first.span.Apart second.span := by
  obtain ⟨stop, trail⟩ := read.trail
  refine List.pairwise_filterMap.mpr ((endings_distinct read).imp ?_)
  intro part other differ found check found' check'
  obtain ⟨options, -, check⟩ := Option.bind_eq_some_iff.mp check
  obtain ⟨options', -, check'⟩ := Option.bind_eq_some_iff.mp check'
  obtain ⟨extent, last, ending, here, report⟩ := Semicolons.report_of_check check
  obtain ⟨extent', last', ending', here', report'⟩ := Semicolons.report_of_check check'
  have here := (ParsedSource.getElem?_tokens _).trans here
  have here' := (ParsedSource.getElem?_tokens _).trans here'
  exact trail.tails_apart here here' (differ extent ending extent' ending')
    (tail_of_report trail here report) (tail_of_report trail here' report')

/-- A literal is no semicolon, so what one rule finds lies apart from what the other finds. -/
theorem quoteFinding_apart_semicolonFinding {found other : Diagnostic}
    (member : found ∈ style.quoteFindings parsed) (member' : other ∈ style.semicolonFindings parsed)
    : found.span.Apart other.span := by
  obtain ⟨stop, trail⟩ := read.trail
  obtain ⟨kind, literal, quoted, -⟩ := literal_of_quoteFinding member
  obtain ⟨token, present, rfl, span⟩ := read.token_of_literal literal quoted
  obtain ⟨part, -, extent, last, -, here, report⟩ := ending_of_semicolonFinding member'
  obtain ⟨index, there⟩ := List.mem_iff_getElem?.mp present
  have bounds := trail.bounds present
  have tail := tail_of_report trail here report
  by_cases same : index = extent.tokens.last
  · subst same
    obtain rfl := Option.some.inj (there.symm.trans here)
    rcases report with ⟨semicolon, rfl⟩ | ⟨-, rfl⟩
    · rcases quoted with quoted | quoted <;> simp [Token.isPunctuator, quoted] at semicolon
    · exact span ▸ Span.apart_of_le (Nat.le_refl _) bounds.2.1
  · exact span ▸ trail.tails_apart there here same ⟨Nat.le_refl _, by omega, rfl⟩ tail

/-- All that is found in a source lies apart. -/
theorem findings_apart
    : (style.findings parsed).Pairwise fun first second => first.span.Apart second.span := by
  refine List.Pairwise.perm ?_ (style.findings_perm parsed).symm Span.Apart.symm
  refine List.pairwise_append.mpr ⟨quoteFindings_apart read, semicolonFindings_apart read, ?_⟩
  exact fun found member other member' => quoteFinding_apart_semicolonFinding read member member'

end Apart

/-- The fix of a finding spans what the finding spans. -/
theorem span_of_fix {found : Diagnostic} {fix : Edit} (member : found ∈ style.findings parsed)
    (fixed : found.fix = some fix)
    : fix.span = found.span := by
  rcases List.mem_append.mp ((style.findings_perm parsed).mem_iff.mp member) with quoted | ended
  · obtain ⟨-, -, -, same⟩ := literal_of_quoteFinding quoted
    exact same fix fixed
  · obtain ⟨-, -, -, last, -, -, ⟨-, rfl⟩ | ⟨-, rfl⟩⟩ := ending_of_semicolonFinding ended
      <;> obtain rfl := Option.some.inj fixed <;> rfl

theorem fixes_apart (style : Style) {found : List Diagnostic} (read : parsed.Read)
    (sub : found.Subperm (style.findings parsed))
    : (found.filterMap Diagnostic.fix).Pairwise fun first second => first.span.Apart second.span := by
  obtain ⟨some, same, sub⟩ := sub
  have apart := ((findings_apart read).sublist sub).perm same Span.Apart.symm
  refine List.pairwise_filterMap.mpr (apart.imp_of_mem ?_)
  intro first second member member' apart fix fixed fix' fixed'
  rw [span_of_fix (sub.subset (same.mem_iff.mpr member)) fixed,
    span_of_fix (sub.subset (same.mem_iff.mpr member')) fixed']
  exact apart

/-- Every fix repairs a token of the source. -/
theorem repairs_of_fix {found : Diagnostic} {fix : Edit} (read : parsed.Read)
    (member : found ∈ style.findings parsed) (fixed : found.fix = some fix)
    : fix.Repairs parsed.tokens.toList := by
  rcases List.mem_append.mp ((style.findings_perm parsed).mem_iff.mp member) with quoted | ended
  · obtain ⟨kind, literal, known, same⟩ := literal_of_quoteFinding quoted
    obtain ⟨token, present, rfl, span⟩ := read.token_of_literal literal known
    exact .requoting present known ((same fix fixed).trans span.symm)
  · obtain ⟨part, shown, extent, last, ending, here, report⟩ := ending_of_semicolonFinding ended
    obtain ⟨last', here', significant⟩ := read.token_of_ending shown ending
    obtain rfl := Option.some.inj (here.symm.trans here')
    have present := List.mem_of_getElem? here
    rcases report with ⟨semicolon, rfl⟩ | ⟨-, rfl⟩
    · obtain rfl := Option.some.inj fixed
      exact .removal present semicolon rfl rfl
    · obtain rfl := Option.some.inj fixed
      exact .addition present significant rfl rfl

end Style

/-- Both ends of a token are boundaries of the source. -/
theorem Trail.fault?_eq_none {text : List Char} {guess : SlashGuess} {tokens : List Token}
    {stop : Scanner} (trail : Trail (.ofText guess text) tokens stop) {edit : Edit}
    (repairs : edit.Repairs tokens) (index : Nat)
    : edit.fault? text index = none := by
  obtain ⟨token, member, span⟩ : ∃ token ∈ tokens,
      edit.span = token.span ∨ edit.span = ⟨token.span.stop, token.span.stop⟩ := by
    cases repairs with
    | addition member _ span => exact ⟨_, member, .inr span⟩
    | removal member _ span | requoting member _ span => exact ⟨_, member, .inl span⟩
  obtain ⟨before, after, split, start, stop⟩ := trail.cut member
  simp only [Scanner.ofText, Nat.zero_add] at split start
  have opens : Text.isBoundary text token.span.start :=
    Text.isBoundary_iff.mpr ⟨before, _, split, start.symm⟩
  have closes : Text.isBoundary text token.span.stop := by
    refine Text.isBoundary_iff.mpr ⟨before ++ token.text.toList, after, ?_, ?_⟩
    · rw [split, List.append_assoc]
    · rw [Text.byteLength_append, stop, start]
  have inside : token.span.stop ≤ Text.byteLength text := by
    rw [split, stop, start]
    simp only [Text.byteLength_append]
    omega
  have forward : token.span.start ≤ token.span.stop := by omega
  rcases span with span | span <;> refine Edit.fault?_eq_none ?_ ?_ ?_ ?_ <;> rw [span]
  all_goals assumption

namespace Style

/-- In every source all fixes of all rules can be made together.

Merging drops no fix, and the edits are exactly the fixes; no two of them conflict and the text
takes them, so that a pass over the source never stops for want of a rewritten text. Each edit
adds a semicolon behind a token, takes one away, or replaces a literal of one token. What both
rules report is what they report one by one, in the order of the source. -/
theorem fixes_apply_together (style : Style) {source : String} {parsed : ParsedSource}
    (run : parse source = .ok parsed)
    : ∃ report, style.check source = .ok report
        ∧ report.diagnostics = inOrder (style.findings parsed)
        ∧ report.edits = editsInOrder ((style.findings parsed).filterMap Diagnostic.fix)
        ∧ report.edits.Pairwise (fun first second => first.conflicts second = false)
        ∧ Edit.validate source.toList report.edits = .ok ()
        ∧ (∀ edit ∈ report.edits, edit.Repairs parsed.tokens.toList)
        ∧ (∃ candidate, rewrite source report.edits = .ok candidate
            ∧ ∀ passes state, state.output = source
              → style.fixPasses (passes + 1) state report.edits
                = if report.edits.isEmpty then state else
                    match style.check candidate with
                    | .error _ => state
                    | .ok next =>
                        style.fixPasses passes
                          ⟨candidate, state.fixCount + report.edits.length, next.diagnostics⟩
                          next.edits)
        ∧ ∃ quotes semicolons,
            check { style with semicolons := none } source = .ok quotes
            ∧ check { style with quotes := none } source = .ok semicolons
            ∧ report.diagnostics = inOrder (quotes.diagnostics ++ semicolons.diagnostics)
            ∧ report.edits = editsInOrder (quotes.edits ++ semicolons.edits) := by
  have read := ParsedSource.read_of_parse run
  have checked (other : Style) := other.check_of_parse run
  obtain ⟨-, -, -, same, -⟩ := parse_ok.mp run
  subst same
  have perm := style.findings_perm parsed
  have fixPerm := perm.filterMap Diagnostic.fix
  rw [List.filterMap_append] at fixPerm
  have apart := fixes_apart style read (List.Subperm.refl _)
  have editsPerm (edits : List Edit) : (editsInOrder edits).Perm edits := List.mergeSort_perm ..
  have diagnosticsPerm (found : List Diagnostic) : (inOrder found).Perm found :=
    List.mergeSort_perm ..
  have repairs : ∀ edit ∈ editsInOrder ((style.findings parsed).filterMap Diagnostic.fix),
      edit.Repairs parsed.tokens.toList := by
    intro edit member
    obtain ⟨found, present, fixed⟩ := List.mem_filterMap.mp ((editsPerm _).mem_iff.mp member)
    exact repairs_of_fix read present fixed
  have apart' := apart.perm (editsPerm _).symm Span.Apart.symm
  have valid : Edit.validate parsed.source.toList
      (editsInOrder ((style.findings parsed).filterMap Diagnostic.fix)) = .ok () := by
    obtain ⟨stop, trail⟩ := read.trail
    exact Edit.validate_eq_ok (fun edit member => trail.fault?_eq_none (repairs edit member)) apart'
  have rewritten : ∃ candidate, rewrite parsed.source
      (editsInOrder ((style.findings parsed).filterMap Diagnostic.fix)) = .ok candidate := by
    rw [rewrite, Edit.applyAll, valid]
    exact ⟨_, rfl⟩
  refine ⟨_, checked style, ?_⟩
  rw [MergedFixes.ofDiagnostics_eq apart]
  refine ⟨rfl, rfl, apart'.imp Edit.not_conflicts, valid, repairs, ?_, _, _, checked _, checked _, ?_⟩
  · obtain ⟨candidate, rewritten⟩ := rewritten
    refine ⟨candidate, rewritten, fun passes state same => ?_⟩
    cases checked : style.check candidate <;> simp only [fixPasses, same, rewritten, checked]
  rw [findings_quotes, findings_semicolons]
  have among {found : List Diagnostic}
      (part : found.Sublist (style.quoteFindings parsed ++ style.semicolonFindings parsed))
      : found.Subperm (style.findings parsed) :=
    part.subperm.trans perm.symm.subperm
  have quoteApart := fixes_apart style read (among (List.sublist_append_left ..))
  have semicolonApart := fixes_apart style read (among (List.sublist_append_right ..))
  rw [MergedFixes.ofDiagnostics_eq quoteApart, MergedFixes.ofDiagnostics_eq semicolonApart]
  exact ⟨mergeSort_eq_of_perm (findings_apart read)
      (perm.trans ((diagnosticsPerm _).append (diagnosticsPerm _)).symm),
    mergeSort_eq_of_perm apart (fixPerm.trans ((editsPerm _).append (editsPerm _)).symm)⟩

/-- Both rules find something in an assignment of a string without a semicolon. -/
theorem fixes_apply_together_of_assigned_string
    : ∃ parsed report, parse "a = 'b'" = .ok parsed
        ∧ check {} "a = 'b'" = .ok report
        ∧ report.edits = editsInOrder ((findings {} parsed).filterMap Diagnostic.fix)
        ∧ ((findings {} parsed).filterMap Diagnostic.fix).length = 2
        ∧ Edit.validate "a = 'b'".toList report.edits = .ok () := by
  have finds : (parse "a = 'b'").toOption.map
      (fun parsed => ((findings {} parsed).filterMap Diagnostic.fix).length) = some 2 := by
    decide +kernel
  obtain ⟨parsed, run, two⟩ := exists_ok_of_toOption_map finds
  obtain ⟨report, checked, -, edits, -, valid, -⟩ := fixes_apply_together {} run
  exact ⟨parsed, report, run, checked, edits, two, valid⟩

end Style

end ScriptStyle
