import Mathlib.Data.List.Perm.Subperm
import ScriptStyle.Proofs.Edit.Validity
import ScriptStyle.Proofs.Grammar.Coverage.Source

/-!
Where the rules report. The rule on quotes reports the token of a literal, the rule on semicolons
the last token of a construct or the place behind it. What they report in one source lies apart.
-/

namespace ScriptStyle

/-- An edit in terms of the tokens of a source: it adds a semicolon behind a significant token,
takes a semicolon away, or replaces a string or a template without substitutions. -/
inductive Edit.Repairs (tokens : List Token) (edit : Edit) : Prop
  | addition {token : Token} (member : token ∈ tokens) (significant : token.isSignificant)
    (span : edit.span = ⟨token.span.stop, token.span.stop⟩) (text : edit.replacement = ";")
  | removal {token : Token} (member : token ∈ tokens) (semicolon : token.isPunctuator ";")
    (span : edit.span = token.span) (text : edit.replacement = "")
  | requoting {token : Token} (member : token ∈ tokens)
    (literal : token.kind = .string ∨ token.kind = .template) (span : edit.span = token.span)

/-- A span that is another one, or the empty rest of it, as reports on a token are. -/
def Span.IsTail (tail whole : Span) : Prop :=
  whole.start ≤ tail.start ∧ tail.start ≤ tail.stop ∧ tail.stop = whole.stop

-----------------------------------------------------------------------------------------
-- What each rule reports
-----------------------------------------------------------------------------------------

namespace Quotes

variable {context : RuleContext} {options : QuoteOptions} {part : Shown} {found : Diagnostic}

/-- A report on a literal spans that literal, and so does its fix. -/
theorem report_of_check (check : check? context options part = some found)
    : ∃ kind, part.literal? = some (kind, found.span) ∧ (kind = .string ∨ kind = .template)
        ∧ ∀ fix, found.fix = some fix → fix.span = found.span := by
  cases part with
  | statement | classMember => cases check
  | string span site =>
      refine ⟨.string, ?_⟩
      simp only [check?, checkString?] at check
      split_ifs at check
      split at check
      · cases check
      · split at check
        · cases check
        all_goals
          obtain rfl := Option.some.inj check
          simp [Shown.literal?, report, RuleContext.diagnostic]
  | template literal site =>
      refine ⟨.template, ?_⟩
      simp only [check?, checkTemplate?] at check
      split_ifs at check with exempt several
      all_goals
        have whole : literal.substitutions.isEmpty = true := by
          simp only [Bool.or_eq_true, not_or, Bool.not_eq_true', Bool.not_eq_false] at exempt
          exact exempt.2
        split at check
        · cases check
        all_goals
          obtain rfl := Option.some.inj check
          simp [Shown.literal?, report, RuleContext.diagnostic, whole]

end Quotes

namespace Semicolons

variable {context : RuleContext} {options : SemicolonOptions} {part : Shown} {found : Diagnostic}

/-- A report on a construct is on the semicolon that it ends with, or on the place behind its
last token, which is no semicolon. -/
theorem report_of_check (check : check? context options part = some found)
    : ∃ extent last, part.ending? = some extent
        ∧ context.tokens[extent.tokens.last]? = some last
        ∧ (last.isPunctuator ";" ∧ found = extra context last
          ∨ last.isPunctuator ";" = false ∧ found = missing context last) := by
  simp only [check?, Option.bind_eq_bind, Option.bind_eq_some_iff] at check
  obtain ⟨⟨construct, enclosing⟩, terminated, last, here, check⟩ := check
  refine ⟨construct.extent, last, by simp [Shown.ending?, terminated], here, ?_⟩
  simp only [checkEnd?] at check
  cases semicolon : last.isPunctuator ";"
  all_goals
    simp only [semicolon, Bool.false_eq_true, if_false, if_true, Bool.not_false, Bool.not_true,
      Bool.true_and, Bool.false_and] at check
    split at check
    all_goals
      split_ifs at check
      simp_all

end Semicolons

-----------------------------------------------------------------------------------------
-- Spans of tokens
-----------------------------------------------------------------------------------------

namespace Trail

variable {start stop : Scanner} {tokens : List Token}

/-- The literals that begin with the tokens of a trail lie apart. -/
theorem literals_apart (trail : Trail start tokens stop)
    : (tokens.filterMap Token.literal?).Pairwise fun first second => first.2.Apart second.2 := by
  refine List.pairwise_filterMap.mpr (trail.ordered.imp ?_)
  intro first second between key known key' known'
  have bounds := Token.span_of_literal? known
  have bounds' := Token.span_of_literal? known'
  refine ⟨fun same => ?_, .inl (by omega)⟩
  have start := congrArg Span.start same
  omega

/-- What is reported on two tokens lies apart. -/
theorem tails_apart (trail : Trail start tokens stop) {index later : Nat} {first second : Token}
    {place place' : Span} (here : tokens[index]? = some first)
    (there : tokens[later]? = some second) (differ : index ≠ later)
    (tail : place.IsTail first.span) (tail' : place'.IsTail second.span)
    : place.Apart place' := by
  rcases Nat.lt_or_gt_of_ne differ with before | behind
  · have bounds := trail.ordered_at here there before
    exact Span.apart_of_le (by grind [Span.IsTail]) (by grind [Span.IsTail])
  · have bounds := trail.ordered_at there here behind
    exact (Span.apart_of_le (by grind [Span.IsTail]) (by grind [Span.IsTail])).symm

end Trail

namespace ParsedSource

variable {parsed : ParsedSource}

/-- Where a token of a source is, as the rules look it up. -/
theorem getElem?_tokens (index : Nat)
    : parsed.tokens.toList[index]? = parsed.tokens[index]? :=
  Array.getElem?_toList ..

namespace Read

variable (read : parsed.Read)

include read

/-- The literals of a tree lie apart. -/
theorem literals_apart
    : (literalTokens parsed.program.shown).Pairwise fun first second => first.2.Apart second.2 := by
  obtain ⟨stop, trail⟩ := read.trail
  exact trail.literals_apart.perm read.literals.symm Span.Apart.symm

/-- A literal of a tree without substitutions is a token. -/
theorem token_of_literal {kind : TokenKind} {span : Span}
    (member : (kind, span) ∈ literalTokens parsed.program.shown)
    (whole : kind = .string ∨ kind = .template)
    : ∃ token ∈ parsed.tokens.toList, token.kind = kind ∧ token.span = span := by
  obtain ⟨token, present, begins⟩ := List.mem_filterMap.mp (read.literals.mem_iff.mp member)
  refine ⟨token, present, ?_⟩
  rcases whole with rfl | rfl <;> cases known : token.kind <;> simp_all [Token.literal?]

/-- A construct of a tree ends at a significant token. -/
theorem token_of_ending {part : Shown} {extent : Extent} (member : part ∈ parsed.program.shown)
    (ending : part.ending? = some extent)
    : ∃ last, parsed.tokens.toList[extent.tokens.last]? = some last ∧ last.isSignificant := by
  obtain ⟨content, stop, token, ends⟩ := (read.grounded part member).ending extent ending
  rcases ends.terminator with ⟨-, semicolon, here, isSemicolon, -⟩ | ⟨-, same, -⟩
  · refine ⟨semicolon, here, ?_⟩
    simp only [Token.isPunctuator, Bool.and_eq_true, beq_iff_eq] at isSemicolon
    rw [Token.isSignificant, isSemicolon.1]
    rfl
  · exact ⟨token, same ▸ ends.here, ends.significant⟩

end Read

end ParsedSource

end ScriptStyle
