import ScriptStyle.Proofs.Style.FixesTogether
import ScriptStyle.Report

/-!
Fixing a text is a chain of passes. A pass makes all edits of a text and gives another text that
parses; the outcome describes the last text of the chain, and nothing of a pass that was given up
shows in it. Fixing the outcome again changes nothing, unless the passes ran out before the edits.
-/

namespace ScriptStyle

namespace Style

variable {style : Style} {source text next output : String} {earlier : List String}
  {report : MergedFixes} {state fixed : FixedSource}

theorem check_ok
    : style.check source = .ok report
      ↔ ∃ parsed, parse source = .ok parsed ∧ .ofDiagnostics (style.findings parsed) = report := by
  rw [check]
  cases parse source <;> simp [bind, Except.bind, pure, Except.pure]

theorem check_error {error : SyntaxError}
    : style.check source = .error error ↔ parse source = .error error := by
  rw [check]
  cases parse source <;> simp [bind, Except.bind, pure, Except.pure]

/-- The edits of a text can be made to it. -/
theorem rewrite_of_check (checked : style.check text = .ok report)
    : ∃ candidate, rewrite text report.edits = .ok candidate := by
  obtain ⟨parsed, run, rfl⟩ := check_ok.mp checked
  have read := ParsedSource.read_of_parse run
  obtain ⟨-, -, -, rfl, -⟩ := parse_ok.mp run
  obtain ⟨stop, trail⟩ := read.trail
  have apart := fixes_apart style read (List.Subperm.refl _)
  rw [MergedFixes.ofDiagnostics_eq apart]
  have ordered := List.mergeSort_perm ((style.findings parsed).filterMap Diagnostic.fix)
    fun first second => first.span.precedes second.span
  have valid : Edit.validate parsed.source.toList
      (MergedFixes.editsInOrder ((style.findings parsed).filterMap Diagnostic.fix)) = .ok () := by
    refine Edit.validate_eq_ok (fun edit member => ?_) (apart.perm ordered.symm Span.Apart.symm)
    obtain ⟨found, present, fixes⟩ := List.mem_filterMap.mp (ordered.mem_iff.mp member)
    exact trail.fault?_eq_none (repairs_of_fix read present fixes)
  rw [rewrite, Edit.applyAll, valid]
  exact ⟨_, rfl⟩

-----------------------------------------------------------------------------------------
-- Passes
-----------------------------------------------------------------------------------------

/-- A pass over a text: the text has edits, all of them are made, and what comes out parses. -/
def Pass (style : Style) (text next : String) : Prop :=
  ∃ report, style.check text = .ok report ∧ report.edits ≠ [] ∧ rewrite text report.edits = .ok next
    ∧ ∃ parsed, parse next = .ok parsed

/-- The number of edits of a text; a text that does not parse has none. -/
def editCount (style : Style) (text : String) : Nat :=
  match style.check text with
  | .ok report => report.edits.length
  | .error _ => 0

/-- Passes that lead from one text to another, with the texts that they are made over in order. -/
inductive PassChain (style : Style) : String → List String → String → Prop
  | done (text : String) : PassChain style text [] text
  | pass {text next output : String} {earlier : List String} (made : style.Pass text next)
    (rest : PassChain style next earlier output) : PassChain style text (text :: earlier) output

theorem editCount_of_check (checked : style.check text = .ok report)
    : style.editCount text = report.edits.length := by
  rw [editCount, checked]

theorem editCount_pos (made : style.Pass text next)
    : 0 < style.editCount text := by
  obtain ⟨report, checked, edits, -⟩ := made
  rw [editCount_of_check checked]
  exact List.length_pos_iff.mpr edits

/-- Passes are made over texts that parse. -/
theorem PassChain.parses (chain : style.PassChain source earlier output)
    : ∀ text ∈ earlier, ∃ parsed, parse text = .ok parsed := by
  induction chain with
  | done => simp
  | @pass text next output earlier made rest ih =>
      intro other member
      rcases List.mem_cons.mp member with rfl | later
      · obtain ⟨report, checked, -⟩ := made
        obtain ⟨parsed, run, -⟩ := check_ok.mp checked
        exact ⟨parsed, run⟩
      · exact ih other later

/-- Every pass counts at least one edit. -/
theorem PassChain.length_le (chain : style.PassChain source earlier output)
    : earlier.length ≤ sumOf style.editCount earlier := by
  induction chain with
  | done => exact Nat.le_refl 0
  | pass made rest ih =>
      have counted := editCount_pos made
      simp only [List.length_cons, sumOf]
      omega

/-- Over a checked text a pass is made, or it has no edits, or they make it unreadable. -/
theorem not_pass_iff (checked : style.check text = .ok report)
    : (¬∃ next, style.Pass text next)
      ↔ report.edits = [] ∨ ∃ candidate error, rewrite text report.edits = .ok candidate
          ∧ parse candidate = .error error := by
  obtain ⟨candidate, made⟩ := rewrite_of_check checked
  constructor
  · intro stuck
    by_cases edits : report.edits = []
    · exact .inl edits
    · refine .inr ⟨candidate, ?_⟩
      cases run : parse candidate with
      | error error => exact ⟨error, made, rfl⟩
      | ok parsed => exact absurd ⟨candidate, report, checked, edits, made, parsed, run⟩ stuck
  · rintro stops ⟨next, other, again, edits, made, parsed, run⟩
    obtain rfl := Except.ok.inj (checked.symm.trans again)
    rcases stops with none | ⟨candidate, error, made', run'⟩
    · exact edits none
    · obtain rfl := Except.ok.inj (made.symm.trans made')
      cases run.symm.trans run'

-----------------------------------------------------------------------------------------
-- Runs of passes
-----------------------------------------------------------------------------------------

/-- A pass that can be made is made and counted, and the passes go on from what it gives. -/
theorem fixPasses_of_pass {after : MergedFixes} (limit : Nat) (edits : report.edits ≠ [])
    (made : rewrite state.output report.edits = .ok next) (again : style.check next = .ok after)
    : style.fixPasses (limit + 1) state report.edits
      = style.fixPasses limit ⟨next, state.fixCount + report.edits.length, after.diagnostics⟩
          after.edits := by
  rw [fixPasses, if_neg (by simpa using edits), made]
  simp only [again]

/-- Where no pass can be made over a text, nothing happens to it. -/
theorem fixPasses_of_not_pass (limit : Nat) (state : FixedSource)
    (checked : style.check state.output = .ok report)
    (stuck : ¬∃ next, style.Pass state.output next)
    : style.fixPasses limit state report.edits = state := by
  cases limit with
  | zero => rfl
  | succ limit =>
      rw [fixPasses]
      rcases (not_pass_iff checked).mp stuck with none | ⟨candidate, error, made, run⟩
      · simp [none]
      · split_ifs
        · rfl
        · simp only [made, check_error.mpr run]

/-- What passes from one state of fixing to another come to: the texts that they were made over,
the count of their edits, and the reason why there were no more. -/
structure PassRun (style : Style) (limit : Nat) (start : FixedSource) (earlier : List String)
    (fixed : FixedSource) : Prop where
  chain : style.PassChain start.output earlier fixed.output
  within : earlier.length ≤ limit
  fixCount : fixed.fixCount = start.fixCount + sumOf style.editCount earlier
  checked : ∃ report, style.check fixed.output = .ok report ∧ fixed.remaining = report.diagnostics
  stops : earlier.length = limit ∨ ¬∃ next, style.Pass fixed.output next

/-- The passes over a checked text are a run, and their limit matters to no run that it allows.

The induction is on the limit: a pass that is made adds its text to the front of the run from what
it gives. -/
theorem fixPasses_run (limit : Nat) (state : FixedSource)
    (checked : style.check state.output = .ok report)
    (described : state.remaining = report.diagnostics)
    : ∃ earlier, PassRun style limit state earlier (style.fixPasses limit state report.edits)
        ∧ style.fixPasses earlier.length state report.edits
          = style.fixPasses limit state report.edits := by
  induction limit generalizing state report with
  | zero => exact ⟨[], ⟨.done _, Nat.le_refl _, rfl, ⟨report, checked, described⟩, .inl rfl⟩, rfl⟩
  | succ limit ih =>
      by_cases stuck : ∃ next, style.Pass state.output next
      · obtain ⟨next, other, same, edits, made, parsed, run⟩ := stuck
        obtain rfl := Except.ok.inj (checked.symm.trans same)
        have again := check_of_parse style run
        have step (limit : Nat) := fixPasses_of_pass limit edits made again
        obtain ⟨earlier, run', cut⟩ := ih ⟨next, state.fixCount + report.edits.length, _⟩ again rfl
        refine ⟨state.output :: earlier, ?_, ?_⟩
        · rw [step]
          refine ⟨.pass ⟨report, checked, edits, made, parsed, run⟩ run'.chain, ?_, ?_, run'.checked, ?_⟩
          · exact Nat.succ_le_succ run'.within
          · rw [run'.fixCount, sumOf, editCount_of_check checked, Nat.add_assoc]
          · exact run'.stops.imp (congrArg (· + 1)) id
        · rw [List.length_cons, step, step, cut]
      · rw [fixPasses_of_not_pass _ _ checked stuck]
        exact ⟨[], ⟨.done _, Nat.zero_le _, rfl, ⟨report, checked, described⟩, .inr stuck⟩, rfl⟩

theorem fix_ok
    : style.fix source = .ok fixed
      ↔ ∃ report, style.check source = .ok report
        ∧ style.fixPasses maxFixPasses ⟨source, 0, report.diagnostics⟩ report.edits = fixed := by
  rw [fix]
  cases style.check source <;> simp [bind, Except.bind, pure, Except.pure]

/-- Fixing a source is a run of passes from it. -/
theorem fix_run (run : style.fix source = .ok fixed)
    : ∃ first earlier, style.check source = .ok first
        ∧ style.PassRun maxFixPasses ⟨source, 0, first.diagnostics⟩ earlier fixed
        ∧ style.fixPasses earlier.length ⟨source, 0, first.diagnostics⟩ first.edits = fixed := by
  obtain ⟨first, checked, rfl⟩ := fix_ok.mp run
  obtain ⟨earlier, made, cut⟩ :=
    fixPasses_run maxFixPasses ⟨source, 0, first.diagnostics⟩ checked rfl
  exact ⟨first, earlier, checked, made, cut⟩

/-- The style that leaves quotes alone and wants no semicolons. -/
def withoutSemicolons : Style where
  quotes := none
  semicolons := some { mode := .never }

/-- Fixing a source is a chain of passes, and its outcome describes the last text of the chain.

The chain has at most `maxFixPasses` passes, every text in it parses, the edits of the texts before
the last are counted, and what remains is what is found in the last text. It stops there because
that text has no edits, because the passes are used up, or because what the edits give does not
parse; the outcome is that of a run that is allowed no other pass, so that nothing of one that is
given up shows in it. -/
theorem fix_is_chain_of_passes (style : Style) {source : String} {fixed : FixedSource}
    (run : style.fix source = .ok fixed)
    : ∃ earlier first last, style.PassChain source earlier fixed.output
        ∧ earlier.length ≤ maxFixPasses
        ∧ (∀ text ∈ earlier ++ [fixed.output], ∃ parsed, parse text = .ok parsed)
        ∧ fixed.fixCount = sumOf style.editCount earlier
        ∧ style.check fixed.output = .ok last
        ∧ fixed.remaining = last.diagnostics
        ∧ (last.edits = [] ∨ earlier.length = maxFixPasses
          ∨ ∃ candidate error, rewrite fixed.output last.edits = .ok candidate
              ∧ parse candidate = .error error)
        ∧ style.check source = .ok first
        ∧ fixed = style.fixPasses earlier.length ⟨source, 0, first.diagnostics⟩ first.edits := by
  obtain ⟨first, earlier, checked, made, cut⟩ := fix_run run
  obtain ⟨last, checked', described⟩ := made.checked
  obtain ⟨parsed, read, -⟩ := check_ok.mp checked'
  refine ⟨earlier, first, last, made.chain, made.within, ?_, ?_, checked', described, ?_, checked,
    cut.symm⟩
  · intro text member
    rcases List.mem_append.mp member with before | final
    · exact made.chain.parses text before
    · obtain rfl := List.mem_singleton.mp final
      exact ⟨parsed, read⟩
  · simpa using made.fixCount
  · rcases made.stops with full | stuck
    · exact .inr (.inl full)
    · exact ((not_pass_iff checked').mp stuck).imp_right .inr

/-- The first semicolon goes, and the second stays: without it the source would not parse. -/
theorem fix_is_chain_of_passes_of_word_operator
    : ∃ fixed earlier last candidate error, withoutSemicolons.fix "a;;\ninstanceof" = .ok fixed
        ∧ fixed.output = "a;\ninstanceof" ∧ fixed.fixCount = 1
        ∧ withoutSemicolons.PassChain "a;;\ninstanceof" earlier fixed.output
        ∧ earlier.length < maxFixPasses
        ∧ withoutSemicolons.check fixed.output = .ok last ∧ last.edits.length = 1
        ∧ rewrite fixed.output last.edits = .ok candidate ∧ parse candidate = .error error := by
  have outcome : (withoutSemicolons.fix "a;;\ninstanceof").toOption.map
      (fun fixed => (fixed.output, fixed.fixCount)) = some ("a;\ninstanceof", 1) := by
    decide +kernel
  have edits : (withoutSemicolons.check "a;\ninstanceof").toOption.map
      (fun report => report.edits.length) = some 1 := by
    decide +kernel
  obtain ⟨fixed, run, known⟩ := exists_ok_of_toOption_map outcome
  obtain ⟨output, count⟩ := Prod.mk.inj known
  obtain ⟨earlier, first, last, chain, -, -, sum, checked, -, stops, -⟩ :=
    fix_is_chain_of_passes withoutSemicolons run
  have few := chain.length_le
  rw [← sum, count] at few
  rw [output] at checked
  rw [checked] at edits
  have one : last.edits.length = 1 := Option.some.inj edits
  rcases stops with none | full | ⟨candidate, error, made, unread⟩
  · simp [none] at one
  · simp [full, maxFixPasses] at few
  · exact ⟨fixed, earlier, last, candidate, error, run, output, count, chain,
      Nat.lt_of_le_of_lt few (by decide), output ▸ checked, one, made, unread⟩

-----------------------------------------------------------------------------------------
-- Fixing again
-----------------------------------------------------------------------------------------

/-- The passes that lead from a source to an output are as many as may be made, and one more
could be made over the output. -/
def CutOff (style : Style) (source output : String) : Prop :=
  (∃ earlier, earlier.length = maxFixPasses ∧ style.PassChain source earlier output)
    ∧ ∃ next, style.Pass output next

theorem PassChain.eq_of_nil (chain : style.PassChain source [] output)
    : source = output := by
  cases chain
  rfl

/-- Where a pass can be made and one is allowed, edits are made. -/
theorem PassRun.fixCount_lt {limit : Nat} (run : style.PassRun (limit + 1) state earlier fixed)
    (pass : ∃ next, style.Pass state.output next)
    : state.fixCount < fixed.fixCount := by
  have few := run.chain.length_le
  rw [run.fixCount]
  cases earlier with
  | nil =>
      rcases run.stops with none | stuck
      · cases none
      · exact absurd (run.chain.eq_of_nil ▸ pass) stuck
  | cons text others =>
      rw [List.length_cons] at few
      omega

/-- Fixing what has been fixed makes no edits and gives it back, unless the passes over the source
were cut off; then there are more edits to make. -/
theorem fix_again (style : Style) {source : String} {fixed : FixedSource}
    (run : style.fix source = .ok fixed)
    : ∃ again, style.fix fixed.output = .ok again
        ∧ (¬style.CutOff source fixed.output → again = ⟨fixed.output, 0, fixed.remaining⟩)
        ∧ (style.CutOff source fixed.output → 0 < again.fixCount) := by
  obtain ⟨first, earlier, checked, made, -⟩ := fix_run run
  obtain ⟨last, checked', described⟩ := made.checked
  refine ⟨_, fix_ok.mpr ⟨last, checked', rfl⟩, ?_, ?_⟩
  · intro whole
    have stuck : ¬∃ next, style.Pass fixed.output next := fun more =>
      made.stops.elim (fun full => whole ⟨⟨earlier, full, made.chain⟩, more⟩) (· more)
    rw [fixPasses_of_not_pass _ ⟨fixed.output, 0, last.diagnostics⟩ checked' stuck, described]
  · rintro ⟨-, more⟩
    obtain ⟨texts, again, -⟩ :=
      fixPasses_run maxFixPasses ⟨fixed.output, 0, last.diagnostics⟩ checked' rfl
    exact again.fixCount_lt more

/-- A fixed source without further edits is given back as it is. -/
theorem fix_again_of_assigned_string
    : ∃ fixed again, fix {} "a = 'b';" = .ok fixed ∧ fixed.output = "a = \x22b\x22;"
        ∧ fix {} fixed.output = .ok again ∧ again = ⟨fixed.output, 0, fixed.remaining⟩ := by
  have outcome : (fix {} "a = 'b';").toOption.map FixedSource.output
      = some "a = \x22b\x22;" := by
    decide +kernel
  have clean : (check {} "a = \x22b\x22;").toOption.map MergedFixes.edits = some [] := by
    decide +kernel
  obtain ⟨fixed, run, output⟩ := exists_ok_of_toOption_map outcome
  obtain ⟨again, run', same, -⟩ := fix_again {} run
  refine ⟨fixed, again, run, output, run', same ?_⟩
  rintro ⟨-, next, report, checked, edits, -⟩
  rw [output] at checked
  rw [checked] at clean
  exact edits (Option.some.inj clean)

/-- Semicolons in a row go one by one, so that the eleventh is left when the passes run out;
fixing what is left takes it away. -/
theorem fix_not_idempotent_of_semicolons
    : ∃ fixed again, withoutSemicolons.fix "a;;;;;;;;;;;" = .ok fixed
        ∧ withoutSemicolons.fix fixed.output = .ok again
        ∧ fixed.output = "a;" ∧ again.output = "a" ∧ again.fixCount = 1 := by
  have outcome : (withoutSemicolons.fix "a;;;;;;;;;;;").toOption.map FixedSource.output
      = some "a;" := by
    decide +kernel
  have outcome' : (withoutSemicolons.fix "a;").toOption.map
      (fun again => (again.output, again.fixCount)) = some ("a", 1) := by
    decide +kernel
  obtain ⟨fixed, run, output⟩ := exists_ok_of_toOption_map outcome
  obtain ⟨again, run', known⟩ := exists_ok_of_toOption_map outcome'
  obtain ⟨output', count⟩ := Prod.mk.inj known
  exact ⟨fixed, again, run, output ▸ run', output, output', count⟩

end Style

end ScriptStyle
