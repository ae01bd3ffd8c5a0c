import ScriptStyle.Proofs.Edit.Validity

/-!
Which fixes survive when violations are merged. Fixes are chosen in the order in which violations
are found and listed in the order of the source; a fix is dropped exactly when it conflicts with
one that was chosen before it, so that those that are left can be made together.
-/

namespace ScriptStyle

-----------------------------------------------------------------------------------------
-- Stable orders
-----------------------------------------------------------------------------------------

section Order

variable {α : Type} {span : α → Span} {items : List α}

/-- Items in the order of their spans. Those that have one span keep the order they had. -/
structure StablySorted (span : α → Span) (items sorted : List α) : Prop where
  perm : sorted.Perm items
  ordered : sorted.Pairwise fun first second => (span first).precedes (span second)
  stable : ∀ place, sorted.filter (span · == place) = items.filter (span · == place)

/-- Sorting by spans is stable. Witness: the items that have one span are in order already, so
they stay a sublist, and there are no others with that span. -/
theorem stablySorted_mergeSort (span : α → Span) (items : List α)
    : StablySorted span items
        (items.mergeSort fun first second => (span first).precedes (span second)) where
  perm := List.mergeSort_perm ..
  ordered := pairwise_mergeSort span items
  stable := by
    intro place
    have together : (items.filter (span · == place)).Pairwise
        fun first second => (span first).precedes (span second) := by
      apply List.pairwise_of_forall_mem_list
      intro first member second member'
      have here := eq_of_beq (List.mem_filter.mp member).2
      have there := eq_of_beq (List.mem_filter.mp member').2
      rw [here, there, Span.precedes_iff]
      exact .inr ⟨rfl, Nat.le_refl _⟩
    have kept := List.sublist_mergeSort
      (fun first second third => @Span.precedes_trans (span first) (span second) (span third))
      (fun first second => @Span.precedes_total (span first) (span second))
      together List.filter_sublist
    have group := kept.filter (span · == place)
    simp only [List.filter_filter, Bool.and_self] at group
    have same := (List.mergeSort_perm items fun first second =>
      (span first).precedes (span second)).filter (span · == place)
    exact (group.eq_of_length same.length_eq.symm).symm

end Order

namespace MergedFixes

variable {kept : List Edit} {given left : List Diagnostic} {place : Nat}
  {first second : Diagnostic} {fix : Edit}

-----------------------------------------------------------------------------------------
-- Choosing fixes
-----------------------------------------------------------------------------------------

/-- What is left of violations when some edits are kept already. Each stays as it is, but for its
fix: that is dropped exactly when it conflicts with an edit kept already or with the fix that was
left to a violation before it. -/
structure Chosen (kept : List Edit) (given left : List Diagnostic) : Prop where
  length_eq : left.length = given.length
  same
    : ∀ {place : Nat} {first second : Diagnostic}, given[place]? = some first →
        left[place]? = some second → second = first ∨ second = { first with fix := none }
  dropped
    : ∀ {place : Nat} {first second : Diagnostic} {fix : Edit}, given[place]? = some first →
        left[place]? = some second → first.fix = some fix →
        (second.fix = none
          ↔ ∃ edit ∈ kept ++ (left.take place).filterMap Diagnostic.fix, edit.conflicts fix)

namespace Chosen

theorem nil : Chosen kept [] [] where
  length_eq := rfl
  same := by simp
  dropped := by simp

/-- A choice goes on behind a violation with the edit that is left of it. -/
theorem cons (same : second = first ∨ second = { first with fix := none })
    (dropped : ∀ fix, first.fix = some fix →
      (second.fix = none ↔ ∃ edit ∈ kept, edit.conflicts fix))
    (rest : Chosen (second.fix.toList ++ kept) given left)
    : Chosen kept (first :: given) (second :: left) where
  length_eq := by rw [List.length_cons, List.length_cons, rest.length_eq]
  same := by
    intro place one other here there
    cases place with
    | zero =>
        obtain rfl := Option.some.inj here
        obtain rfl := Option.some.inj there
        exact same
    | succ place => exact rest.same here there
  dropped := by
    intro place one other fix here there fixed
    cases place with
    | zero =>
        obtain rfl := Option.some.inj here
        obtain rfl := Option.some.inj there
        simpa using dropped fix fixed
    | succ place =>
        have among (edit : Edit)
            : edit ∈ second.fix.toList ++ kept ++ (left.take place).filterMap Diagnostic.fix
              ↔ edit ∈ kept ++ (second :: left.take place).filterMap Diagnostic.fix := by
          cases remains : second.fix <;> simp [remains, or_left_comm]
        simp only [rest.dropped here there fixed, List.take_succ_cons, among]

/-- A violation without a fix stays. -/
theorem unfixable (fixed : first.fix = none) (rest : Chosen kept given left)
    : Chosen kept (first :: given) (first :: left) := by
  apply cons (.inl rfl)
  · intro fix found
    rw [fixed] at found
    cases found
  · rwa [fixed]

/-- A fix is dropped that conflicts with an edit kept already. -/
theorem drop (fixed : first.fix = some fix) (conflict : ∃ edit ∈ kept, edit.conflicts fix)
    (rest : Chosen kept given left)
    : Chosen kept (first :: given) ({ first with fix := none } :: left) := by
  apply cons (.inr rfl)
  · intro other found
    obtain rfl := Option.some.inj (fixed.symm.trans found)
    exact ⟨fun _ => conflict, fun _ => rfl⟩
  · exact rest

/-- A fix that conflicts with no edit kept already is kept like them. -/
theorem keep (fixed : first.fix = some fix) (agree : ¬∃ edit ∈ kept, edit.conflicts fix)
    (rest : Chosen (fix :: kept) given left)
    : Chosen kept (first :: given) (first :: left) := by
  apply cons (.inl rfl)
  · intro other found
    obtain rfl := Option.some.inj (fixed.symm.trans found)
    rw [fixed]
    constructor
    · intro absent
      cases absent
    · intro conflict
      exact absurd conflict agree
  · rwa [fixed]

/-- A fix that is left was there before. -/
theorem fix_of_left (chosen : Chosen kept given left) (there : left[place]? = some second)
    (remains : second.fix = some fix)
    : ∃ first, given[place]? = some first ∧ first.fix = some fix := by
  obtain ⟨bound, -⟩ := List.getElem?_eq_some_iff.mp there
  rw [chosen.length_eq] at bound
  have here := List.getElem?_eq_getElem bound
  refine ⟨_, here, ?_⟩
  rcases chosen.same here there with rfl | rfl
  · exact remains
  · cases remains

/-- No two fixes that are left conflict. -/
theorem agree (chosen : Chosen [] given left)
    : (left.filterMap Diagnostic.fix).Pairwise
        fun first second => first.conflicts second = false := by
  rw [List.pairwise_filterMap, List.pairwise_iff_getElem]
  intro place later bound bound' before fix remains fix' remains'
  have there := List.getElem?_eq_getElem bound'
  obtain ⟨first, here, fixed⟩ := chosen.fix_of_left there remains'
  have present : fix ∈ (left.take later).filterMap Diagnostic.fix := by
    refine List.mem_filterMap.mpr ⟨left[place], ?_, remains⟩
    exact List.mem_take_iff_getElem.mpr ⟨place, by omega, rfl⟩
  rw [Bool.eq_false_iff]
  intro conflict
  have lost := (chosen.dropped here there fixed).mpr ⟨fix, present, conflict⟩
  rw [lost] at remains'
  cases remains'

end Chosen

/-- Merging makes the choice, and its edits are those kept already and the fixes that are left. -/
theorem keep_chosen (kept : List Edit) (given : List Diagnostic)
    : Chosen kept given (keep kept given).diagnostics
      ∧ (keep kept given).edits
        = kept.reverse ++ (keep kept given).diagnostics.filterMap Diagnostic.fix := by
  induction given generalizing kept with
  | nil => exact ⟨.nil, (List.append_nil _).symm⟩
  | cons diagnostic others ih =>
      cases fixed : diagnostic.fix with
      | none =>
          obtain ⟨chosen, edits⟩ := ih kept
          simp only [keep, fixed, List.filterMap_cons_none fixed]
          exact ⟨chosen.unfixable fixed, edits⟩
      | some fix =>
          cases conflict : kept.any (·.conflicts fix) with
          | true =>
              obtain ⟨chosen, edits⟩ := ih kept
              simp only [keep, fixed, conflict, if_true]
              exact ⟨chosen.drop fixed (List.any_eq_true.mp conflict), edits⟩
          | false =>
              obtain ⟨chosen, edits⟩ := ih (fix :: kept)
              have agree : ¬∃ edit ∈ kept, edit.conflicts fix := by
                rw [← List.any_eq_true, conflict]
                exact Bool.false_ne_true
              simp only [keep, fixed, conflict, Bool.false_eq_true, if_false,
                List.filterMap_cons_some fixed]
              refine ⟨chosen.keep fixed agree, ?_⟩
              rw [edits, List.reverse_cons, List.append_assoc]
              rfl

/-- Merging chooses fixes in the order in which violations are found, and loses nothing else.

The violations that are returned are those that were given, in the order of the source; each is as
it was but for its fix, which is dropped exactly when it conflicts with the fix that was left to
a violation found before it. The edits are the fixes that are left, one for each violation that
has one, in the order of the source. No two of them conflict, and a text that each fix fits takes
them together. -/
theorem merged_in_order (diagnostics : List Diagnostic)
    : ∃ left, Chosen [] diagnostics left
        ∧ StablySorted Diagnostic.span left (ofDiagnostics diagnostics).diagnostics
        ∧ StablySorted Edit.span (left.filterMap Diagnostic.fix) (ofDiagnostics diagnostics).edits
        ∧ (ofDiagnostics diagnostics).edits.length
          = fixableCount (ofDiagnostics diagnostics).diagnostics
        ∧ (ofDiagnostics diagnostics).edits.Pairwise
            (fun first second => first.conflicts second = false)
        ∧ ∀ text, (∀ fix ∈ diagnostics.filterMap Diagnostic.fix, fix.Fits text) →
            Edit.validate text (ofDiagnostics diagnostics).edits = .ok () := by
  obtain ⟨chosen, edits⟩ := keep_chosen [] diagnostics
  rw [List.reverse_nil, List.nil_append] at edits
  have diagnosticsSorted := stablySorted_mergeSort Diagnostic.span (keep [] diagnostics).diagnostics
  have editsSorted := stablySorted_mergeSort Edit.span (keep [] diagnostics).edits
  have agree : (ofDiagnostics diagnostics).edits.Pairwise
      fun first second => first.conflicts second = false := by
    refine (edits ▸ chosen.agree).perm editsSorted.perm.symm fun agree => ?_
    rw [Edit.conflicts_comm, agree]
  refine ⟨_, chosen, diagnosticsSorted, edits ▸ editsSorted, ?_, agree, fun text fits => ?_⟩
  · calc (ofDiagnostics diagnostics).edits.length
        = (keep [] diagnostics).edits.length := editsSorted.perm.length_eq
      _ = (keep [] diagnostics).diagnostics.countP Diagnostic.isFixable := by
          rw [edits, List.length_filterMap_eq_countP]
          rfl
      _ = fixableCount (ofDiagnostics diagnostics).diagnostics :=
          (diagnosticsSorted.perm.countP_eq Diagnostic.isFixable).symm
  · refine Edit.validate_eq_ok_iff.mpr ⟨fun edit member => ?_, agree⟩
    have present := editsSorted.perm.mem_iff.mp member
    rw [edits] at present
    obtain ⟨second, among, remains⟩ := List.mem_filterMap.mp present
    obtain ⟨place, there⟩ := List.mem_iff_getElem?.mp among
    obtain ⟨first, here, fixed⟩ := chosen.fix_of_left there remains
    exact fits edit (List.mem_filterMap.mpr ⟨first, List.mem_of_getElem? here, fixed⟩)

/-- Of three removals the second is dropped for the first, although it stands before it in the
source. The third is kept, since it conflicts with the dropped one only. -/
theorem merged_in_order_of_dropped_fix
    : ∃ found : List Diagnostic,
        found.filterMap Diagnostic.fix
          = [⟨⟨4, 7⟩, "", none⟩, ⟨⟨2, 5⟩, "", none⟩, ⟨⟨0, 3⟩, "", none⟩]
        ∧ (keep [] found).edits = [⟨⟨4, 7⟩, "", none⟩, ⟨⟨0, 3⟩, "", none⟩]
        ∧ Edit.validate "a = 'b';".toList (ofDiagnostics found).edits = .ok () := by
  refine ⟨[⟨.wrongQuotes, none, ⟨4, 7⟩, 1, 5, some ⟨⟨4, 7⟩, "", none⟩⟩,
      ⟨.wrongQuotes, none, ⟨2, 5⟩, 1, 3, some ⟨⟨2, 5⟩, "", none⟩⟩,
      ⟨.wrongQuotes, none, ⟨0, 3⟩, 1, 1, some ⟨⟨0, 3⟩, "", none⟩⟩], rfl, rfl, ?_⟩
  obtain ⟨left, -, -, -, -, -, valid⟩ := merged_in_order _
  exact valid _ (by decide +kernel)

end MergedFixes

end ScriptStyle
