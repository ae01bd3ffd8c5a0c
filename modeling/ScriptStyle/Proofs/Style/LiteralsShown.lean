import ScriptStyle.Proofs.Rule.Findings
import ScriptStyle.Proofs.Tree.Sites

/-!
No literal of a source is missed or shown twice, and each is shown at the site that the tree puts
it at.
-/

namespace ScriptStyle

namespace Shown

/-- The span of a string. -/
def string? : Shown → Option Span
  | .string span _ => some span
  | .template _ _ | .statement _ _ | .classMember _ _ => none

/-- Where a template begins. -/
def templateStart? : Shown → Option Nat
  | .template literal _ => some literal.span.start
  | .string _ _ | .statement _ _ | .classMember _ _ => none

end Shown

/-- Whether a token begins a template. -/
def Token.isTemplateStart (token : Token) : Bool :=
  token.kind == .template || token.kind == .templateHead

/-- The literals of a source, each shown once and at its site. -/
structure ParsedSource.LiteralsShown (parsed : ParsedSource) : Prop where
  strings
    : (parsed.program.shown.filterMap Shown.string?).Perm
        ((parsed.tokens.toList.filter (·.kind == .string)).map Token.span)
  stringsOnce : (parsed.program.shown.filterMap Shown.string?).Nodup
  templates
    : (parsed.program.shown.filterMap Shown.templateStart?).Perm
        ((parsed.tokens.toList.filter Token.isTemplateStart).map (·.span.start))
  templatesOnce : (parsed.program.shown.filterMap Shown.templateStart?).Nodup
  quoted : ∀ literal site, .template literal site ∈ parsed.program.shown → literal.Quoted
  /-- A template without substitutions is one token. -/
  whole
    : ∀ literal site, .template literal site ∈ parsed.program.shown → literal.substitutions = [] →
        ∃ token ∈ parsed.tokens.toList, token.kind = .template ∧ token.span = literal.span
  propertyKeys
    : ∀ span, .string span .propertyKey ∈ parsed.program.shown
        ↔ parsed.program.Contains (.propertyKey (.string span))
  moduleNames
    : ∀ span, .string span .moduleName ∈ parsed.program.shown
        ↔ parsed.program.Contains (.moduleName (.string span))
  moduleSources
    : ∀ span, .string span .moduleSource ∈ parsed.program.shown
        ↔ parsed.program.Contains (.moduleSource span)
  /-- A string is shown as a statement if it is all of one, without parentheses, and then with the
  marks of that statement. -/
  stringStatements
    : ∀ span directive bodyLevel,
        .string span (.statement directive bodyLevel) ∈ parsed.program.shown
        ↔ ∃ placement, placement.isDirective = directive ∧ placement.isBodyLevel = bodyLevel
            ∧ parsed.program.Contains (.statement (.expression (.string span) placement))
  templateStatements
    : ∀ literal directive bodyLevel,
        .template literal (.statement directive bodyLevel) ∈ parsed.program.shown
        ↔ ∃ span placement, placement.isDirective = directive ∧ placement.isBodyLevel = bodyLevel
            ∧ parsed.program.Contains (.statement (.expression (.template literal span) placement))
  templateSites
    : ∀ literal site, .template literal site ∈ parsed.program.shown →
        site = .expression ∨ ∃ directive bodyLevel, site = .statement directive bodyLevel

-----------------------------------------------------------------------------------------
-- The literals of a source
-----------------------------------------------------------------------------------------

namespace ParsedSource.Read

variable {parsed : ParsedSource} (read : parsed.Read)

include read

theorem strings_shown
    : (parsed.program.shown.filterMap Shown.string?).Perm
        ((parsed.tokens.toList.filter (·.kind == .string)).map Token.span) := by
  have perm := read.literals.filterMap fun key => if key.1 = .string then some key.2 else none
  rw [literalTokens, List.filterMap_filterMap, List.filterMap_filterMap] at perm
  convert perm using 1
  · refine List.filterMap_congr fun part _ => ?_
    cases part with
    | template literal _ =>
        cases empty : literal.substitutions <;> simp [Shown.string?, Shown.literal?, empty]
    | _ => rfl
  · rw [← List.filterMap_eq_map', ← List.filterMap_eq_filter, List.filterMap_filterMap]
    refine List.filterMap_congr fun token _ => ?_
    cases kind : token.kind <;> simp [Token.literal?, kind]

theorem templates_shown
    : (parsed.program.shown.filterMap Shown.templateStart?).Perm
        ((parsed.tokens.toList.filter Token.isTemplateStart).map (·.span.start)) := by
  have perm := read.literals.filterMap fun key =>
    if key.1 = .string then none else some key.2.start
  rw [literalTokens, List.filterMap_filterMap, List.filterMap_filterMap] at perm
  convert perm using 1
  · refine List.filterMap_congr fun part _ => ?_
    cases part with
    | template literal _ =>
        cases empty : literal.substitutions <;> simp [Shown.templateStart?, Shown.literal?, empty]
    | _ => rfl
  · rw [← List.filterMap_eq_map', ← List.filterMap_eq_filter, List.filterMap_filterMap]
    refine List.filterMap_congr fun token _ => ?_
    cases kind : token.kind <;> simp [Token.literal?, Token.isTemplateStart, kind]

/-- Some of the tokens of a source begin at places of their own. -/
theorem starts_nodup (p : Token → Bool)
    : ((parsed.tokens.toList.filter p).map (·.span.start)).Nodup := by
  obtain ⟨stop, trail⟩ := read.trail
  refine List.pairwise_map.mpr ((trail.ordered.sublist List.filter_sublist).imp ?_)
  intro first second between
  omega

end ParsedSource.Read

/-- The literals of a source that parses are shown, each once and at its site. -/
theorem ParsedSource.literals_shown {source : String} {parsed : ParsedSource}
    (run : parse source = .ok parsed)
    : parsed.LiteralsShown := by
  have read := read_of_parse run
  exact {
    strings := read.strings_shown
    stringsOnce := by
      refine read.strings_shown.nodup_iff.mpr (List.Nodup.of_map Span.start ?_)
      rw [List.map_map]
      exact read.starts_nodup _
    templates := read.templates_shown
    templatesOnce := read.templates_shown.nodup_iff.mpr (read.starts_nodup _)
    quoted := fun literal site member => (read.grounded _ member).template literal site rfl
    whole := by
      intro literal site member empty
      refine read.token_of_literal (List.mem_filterMap.mpr ⟨_, member, ?_⟩) (.inr rfl)
      simp [Shown.literal?, empty]
    propertyKeys := Program.shown_propertyKey_iff
    moduleNames := Program.shown_moduleName_iff
    moduleSources := Program.shown_moduleSource_iff
    stringStatements := fun _ _ _ => Program.shown_stringStatement_iff
    templateStatements := fun _ _ _ => Program.shown_templateStatement_iff
    templateSites := fun _ _ => Program.site_of_template }

/-- A directive, a property name and a template in a template, with what is shown of them. -/
theorem ParsedSource.literals_shown_of_nested
    : ∃ parsed, parse "'a'; (\x7b 'b': `c$\x7b`d`\x7d` \x7d)" = .ok parsed ∧ parsed.LiteralsShown
        ∧ parsed.program.shown.filterMap Shown.string? = [⟨0, 3⟩, ⟨8, 11⟩]
        ∧ parsed.program.shown.filterMap Shown.templateStart? = [13, 17] := by
  have shown : (parse "'a'; (\x7b 'b': `c$\x7b`d`\x7d` \x7d)").toOption.map (fun parsed =>
      (parsed.program.shown.filterMap Shown.string?,
        parsed.program.shown.filterMap Shown.templateStart?)) = some ([⟨0, 3⟩, ⟨8, 11⟩], [13, 17]) := by
    decide +kernel
  obtain ⟨parsed, run, known⟩ := exists_ok_of_toOption_map shown
  obtain ⟨strings, templates⟩ := Prod.mk.inj known
  exact ⟨parsed, run, literals_shown run, strings, templates⟩

end ScriptStyle
