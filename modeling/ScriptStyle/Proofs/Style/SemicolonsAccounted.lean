import Mathlib.Data.List.Forall2
import Mathlib.Data.List.Induction
import ScriptStyle.Proofs.Style.FixesTogether

/-!
Every semicolon of a source is accounted for: it ends one construct, stands alone, or separates
the parts in the head of a loop. The rule on semicolons looks at ends of constructs only.
-/

namespace ScriptStyle

/-- A report of the rule on semicolons on the token with the given index, with which a construct
ends: on that token if it is a semicolon, or else on the place behind it. -/
def Semicolons.ReportsAt (context : RuleContext) (index : Nat) (found : Diagnostic) : Prop :=
  ∃ last, context.tokens[index]? = some last
    ∧ (last.isPunctuator ";" ∧ found = extra context last
      ∨ last.isPunctuator ";" = false ∧ found = missing context last)

/-- The tokens of a source that are semicolons, and whose each of them is. -/
structure ParsedSource.SemicolonsAccounted (parsed : ParsedSource) : Prop where
  /-- No two constructs end at one token. -/
  distinct : (endIndices parsed.program.shown).Nodup
  /-- A construct ends with a semicolon if its content was followed by one. Otherwise it ends with
  its content, and what follows is a closing brace, begins a line, or is nothing, except behind
  a loop with its test at the end. -/
  ends
    : ∀ part ∈ parsed.program.shown, ∀ extent, part.ending? = some extent →
        ∃ content stop token, part.Ends parsed.tokens.toList extent content stop token
          ∧ (isSemicolonAt parsed.tokens.toList extent.tokens.last ↔ content.sees ";")
  /-- Each semicolon has one owner, and what stands alone or separates is a semicolon. -/
  owners
    : ∀ index,
        ((endIndices parsed.program.shown).filter (isSemicolonAt parsed.tokens.toList)).count index
            + (emptyIndices parsed.program.shown).count index
            + (separatorIndices parsed.tokens.toList parsed.program.shown).count index
          = if isSemicolonAt parsed.tokens.toList index then 1 else 0
  /-- What stands alone is one token. -/
  alone
    : ∀ part ∈ parsed.program.shown, ∀ extent, part.empty? = some extent →
        extent.tokens.first = extent.tokens.last
  /-- There are two semicolons in the head of a loop with three parts. -/
  pairs
    : ∀ part ∈ parsed.program.shown, part.isForLoop →
        (part.separators parsed.tokens.toList).length = 2
  total
    : parsed.tokens.toList.countP (·.isPunctuator ";")
        = ((endIndices parsed.program.shown).filter (isSemicolonAt parsed.tokens.toList)).length
          + (emptyIndices parsed.program.shown).length
          + 2 * parsed.program.shown.countP Shown.isForLoop
  /-- The rule on semicolons reports ends of constructs, each at most once. -/
  reported
    : ∀ options, ∃ report ends,
        Style.check { quotes := none, semicolons := some options } parsed.source = .ok report
        ∧ ends.Nodup ∧ ends ⊆ endIndices parsed.program.shown
        ∧ List.Forall₂ (Semicolons.ReportsAt (.ofSource parsed)) ends report.diagnostics
  /-- It reports nothing on a semicolon that stands alone or separates. -/
  spared
    : ∀ options report,
        Style.check { quotes := none, semicolons := some options } parsed.source = .ok report →
        ∀ found ∈ report.diagnostics, ∀ index,
          index ∈ emptyIndices parsed.program.shown
            ∨ index ∈ separatorIndices parsed.tokens.toList parsed.program.shown →
          ∀ token, parsed.tokens.toList[index]? = some token → found.span.Apart token.span

-----------------------------------------------------------------------------------------
-- Counting
-----------------------------------------------------------------------------------------

/-- The tokens that satisfy a condition are as many as their indices. -/
theorem countP_eq_length_indices (p : Token → Bool) (tokens : List Token)
    : tokens.countP p
      = ((List.range tokens.length).filter fun index => tokens[index]?.any p).length := by
  induction tokens using List.reverseRecOn with
  | nil => rfl
  | append_singleton before last ih =>
      have same : (List.range before.length).filter (fun index => (before ++ [last])[index]?.any p)
          = (List.range before.length).filter fun index => before[index]?.any p :=
        List.filter_congr fun index inside => by
          rw [List.getElem?_append_left (List.mem_range.mp inside)]
      rw [List.countP_append, ih, List.length_append, List.length_singleton, List.range_succ,
        List.filter_append, List.length_append, same]
      cases holds : p last <;> simp [holds]

theorem separatorIndices_length {tokens : List Token} {parts : List Shown}
    (pairs : ∀ part ∈ parts, part.isForLoop → (part.separators tokens).length = 2)
    : (separatorIndices tokens parts).length = 2 * parts.countP Shown.isForLoop := by
  induction parts with
  | nil => rfl
  | cons part others ih =>
      have rest := ih fun other member => pairs other (List.mem_cons_of_mem _ member)
      rw [separatorIndices, List.flatMap_cons, List.length_append, ← separatorIndices, rest]
      cases loop : part.isForLoop with
      | false => rw [Shown.separators_of_not_isForLoop loop, List.countP_cons_of_neg (by simp [loop])]; simp
      | true =>
          rw [pairs part (List.mem_cons_self ..) loop, List.countP_cons_of_pos loop]
          omega

namespace ParsedSource.Read

variable {parsed : ParsedSource} (read : parsed.Read)

include read

/-- Each semicolon has one owner. -/
theorem semicolon_owners (index : Nat)
    : ((endIndices parsed.program.shown).filter (isSemicolonAt parsed.tokens.toList)).count index
        + (emptyIndices parsed.program.shown).count index
        + (separatorIndices parsed.tokens.toList parsed.program.shown).count index
      = if isSemicolonAt parsed.tokens.toList index then 1 else 0 := by
  rw [← read.semicolons index, (ownSemicolons_perm ..).count_eq, List.count_append,
    List.count_append]

theorem semicolon_total
    : parsed.tokens.toList.countP (·.isPunctuator ";")
      = ((endIndices parsed.program.shown).filter (isSemicolonAt parsed.tokens.toList)).length
        + (emptyIndices parsed.program.shown).length
        + 2 * parsed.program.shown.countP Shown.isForLoop := by
  have same : (ownSemicolons parsed.tokens.toList parsed.program.shown).Perm
      ((List.range parsed.tokens.toList.length).filter (isSemicolonAt parsed.tokens.toList)) := by
    refine List.perm_iff_count.mpr fun index => ?_
    rw [read.semicolons index]
    cases semicolon : isSemicolonAt parsed.tokens.toList index with
    | false =>
        rw [List.count_eq_zero.mpr fun member => by simp [semicolon] at member]
        rfl
    | true =>
        obtain ⟨token, here, -⟩ := (Option.any_eq_true ..).mp semicolon
        obtain ⟨inside, -⟩ := List.getElem?_eq_some_iff.mp here
        rw [List.count_filter semicolon, List.count_eq_one_of_mem List.nodup_range
          (List.mem_range.mpr inside)]
        rfl
  have pairs := separatorIndices_length fun part member => (read.grounded part member).separators
  rw [countP_eq_length_indices, ← pairs]
  have lengths := (same.symm.trans (ownSemicolons_perm ..)).length_eq
  rw [List.length_append, List.length_append] at lengths
  exact lengths

end ParsedSource.Read

-----------------------------------------------------------------------------------------
-- What the rule reports
-----------------------------------------------------------------------------------------

/-- The rule finds something at the ends of some of the constructs among parts, in their order. -/
theorem Semicolons.findings_reportAt (context : RuleContext) (options : SemicolonOptions)
    (parts : List Shown)
    : ∃ ends, ends.Sublist (endIndices parts)
        ∧ List.Forall₂ (ReportsAt context) ends (parts.filterMap (check? context options)) := by
  induction parts with
  | nil => exact ⟨[], .refl _, .nil⟩
  | cons part others ih =>
      obtain ⟨ends, sub, reports⟩ := ih
      rw [endIndices_cons]
      cases check : check? context options part with
      | none =>
          rw [List.filterMap_cons_none check]
          exact ⟨ends, sub.trans (List.sublist_append_right ..), reports⟩
      | some found =>
          obtain ⟨extent, last, ending, here, report⟩ := report_of_check check
          rw [List.filterMap_cons_some check, ending]
          exact ⟨_, sub.cons_cons _, .cons ⟨last, here, report⟩ reports⟩

/-- All semicolons of a source that parses are accounted for. -/
theorem ParsedSource.semicolons_accounted {source : String} {parsed : ParsedSource}
    (run : parse source = .ok parsed)
    : parsed.SemicolonsAccounted := by
  have read := read_of_parse run
  obtain ⟨-, -, -, same, -⟩ := parse_ok.mp run
  subst same
  have checked (options : SemicolonOptions)
      : Style.check ⟨none, some options⟩ parsed.source = .ok ⟨MergedFixes.inOrder
          (Style.semicolonFindings ⟨none, some options⟩ parsed), MergedFixes.editsInOrder
          ((Style.semicolonFindings ⟨none, some options⟩ parsed).filterMap Diagnostic.fix)⟩ := by
    have apart := Style.fixes_apart ⟨none, some options⟩ read (List.Subperm.refl _)
    rw [Style.check_of_parse _ run, MergedFixes.ofDiagnostics_eq apart,
      ← Style.findings_semicolons ⟨none, some options⟩]
  have sorted (found : List Diagnostic) : (MergedFixes.inOrder found).Perm found :=
    List.mergeSort_perm ..
  exact {
    distinct := read.ends
    ends := by
      intro part member extent ending
      obtain ⟨content, stop, token, ends⟩ := (read.grounded part member).ending extent ending
      refine ⟨content, stop, token, ends, ?_⟩
      rcases ends.terminator with ⟨consumed, semicolon, here, isSemicolon, -⟩ | ⟨absent, last, -⟩
      · simp [isSemicolonAt, here, isSemicolon, consumed]
      · simp [isSemicolonAt, ← last, ends.here, ends.noSemicolon, absent]
    owners := read.semicolon_owners
    alone := fun part member extent empty => ((read.grounded part member).empty extent empty).1
    pairs := fun part member => (read.grounded part member).separators
    total := read.semicolon_total
    reported := by
      intro options
      obtain ⟨ends, sub, reports⟩ :=
        Semicolons.findings_reportAt (.ofSource parsed) options parsed.program.shown
      obtain ⟨places, reports, perm⟩ := List.perm_comp_forall₂
        (sorted (Style.semicolonFindings ⟨none, some options⟩ parsed)) reports.flip
      exact ⟨_, places, checked options, perm.nodup_iff.mpr (read.ends.sublist sub),
        fun index member => sub.subset (perm.mem_iff.mp member), reports.flip⟩
    spared := by
      intro options report check found member index owned token here
      obtain rfl := Except.ok.inj ((checked options).symm.trans check)
      obtain ⟨part, shown, extent, last, ending, there, reported⟩ :=
        Style.ending_of_semicolonFinding ((sorted _).mem_iff.mp member)
      obtain ⟨stop, trail⟩ := read.trail
      have differ : extent.tokens.last ≠ index := by
        rintro rfl
        have owners := read.semicolon_owners extent.tokens.last
        have one : 0 < (emptyIndices parsed.program.shown).count extent.tokens.last
            + (separatorIndices parsed.tokens.toList parsed.program.shown).count
              extent.tokens.last := by
          rcases owned with empty | separator
          · exact Nat.add_pos_left (List.count_pos_iff.mpr empty) _
          · exact Nat.add_pos_right _ (List.count_pos_iff.mpr separator)
        split at owners
        · next semicolon =>
            have another : extent.tokens.last ∈ (endIndices parsed.program.shown).filter
                (isSemicolonAt parsed.tokens.toList) :=
              List.mem_filter.mpr ⟨List.mem_filterMap.mpr ⟨part, shown, by rw [ending]; rfl⟩, semicolon⟩
            have := List.count_pos_iff.mpr another
            omega
        · omega
      exact trail.tails_apart there here differ (Style.tail_of_report trail there reported)
        ⟨Nat.le_refl _, (trail.bounds (List.mem_of_getElem? here)).2.1.le, rfl⟩ }

/-- A loop, a statement in it and an empty statement have four semicolons. -/
theorem ParsedSource.semicolons_accounted_of_loop
    : ∃ parsed, parse "for (a; b;) c;;" = .ok parsed ∧ parsed.SemicolonsAccounted
        ∧ endIndices parsed.program.shown = [8] ∧ emptyIndices parsed.program.shown = [9]
        ∧ separatorIndices parsed.tokens.toList parsed.program.shown = [3, 5] := by
  have owners : (parse "for (a; b;) c;;").toOption.map (fun parsed =>
      (endIndices parsed.program.shown, emptyIndices parsed.program.shown,
        separatorIndices parsed.tokens.toList parsed.program.shown)) = some ([8], [9], [3, 5]) := by
    decide +kernel
  obtain ⟨parsed, run, known⟩ := exists_ok_of_toOption_map owners
  obtain ⟨ends, others⟩ := Prod.mk.inj known
  obtain ⟨empties, separators⟩ := Prod.mk.inj others
  exact ⟨parsed, run, semicolons_accounted run, ends, empties, separators⟩

end ScriptStyle
