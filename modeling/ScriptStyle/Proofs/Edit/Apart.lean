import Mathlib.Data.List.Pairwise
import ScriptStyle.Check
import ScriptStyle.Proofs.Text.Slices

/-!
Edits whose spans lie apart do not conflict. They are kept when fixes are merged, and the order
of their spans is the only one there is.
-/

namespace ScriptStyle

-----------------------------------------------------------------------------------------
-- Spans
-----------------------------------------------------------------------------------------

namespace Span

variable {first second third : Span}

/-- Two spans that differ, of which one ends before the other begins. They may touch. -/
def Apart (first second : Span) : Prop :=
  first ≠ second ∧ (first.stop ≤ second.start ∨ second.stop ≤ first.start)

theorem Apart.symm (apart : Apart first second)
    : Apart second first :=
  ⟨apart.1.symm, apart.2.symm⟩

/-- Spans are apart where one ends before the other begins, unless both are empty. -/
theorem apart_of_le (before : first.stop ≤ second.start) (differ : first.start < second.stop)
    : first.Apart second := by
  refine ⟨?_, .inl before⟩
  rintro rfl
  omega

theorem precedes_iff
    : first.precedes second
      ↔ first.start < second.start ∨ first.start = second.start ∧ first.stop ≤ second.stop := by
  simp [precedes]

theorem precedes_trans (before : first.precedes second) (behind : second.precedes third)
    : first.precedes third := by
  rw [precedes_iff] at *
  omega

theorem precedes_total
    : (first.precedes second || second.precedes first) = true := by
  rw [Bool.or_eq_true, precedes_iff, precedes_iff]
  omega

theorem precedes_antisymm (before : first.precedes second) (behind : second.precedes first)
    : first = second := by
  rw [precedes_iff] at *
  obtain ⟨start, stop⟩ := first
  obtain ⟨start', stop'⟩ := second
  simp only [mk.injEq] at *
  omega

end Span

theorem Edit.not_conflicts {first second : Edit} (apart : first.span.Apart second.span)
    : first.conflicts second = false := by
  obtain ⟨distinct, beside⟩ := apart
  rw [Bool.eq_false_iff]
  intro conflict
  simp only [conflicts, overlaps, isInsertion, Bool.or_eq_true, Bool.and_eq_true,
    decide_eq_true_eq, beq_iff_eq] at conflict
  rcases conflict with ⟨before, behind⟩ | ⟨⟨empty, empty'⟩, same⟩
  · omega
  · apply distinct
    obtain ⟨⟨start, stop⟩, _, _⟩ := first
    obtain ⟨⟨start', stop'⟩, _, _⟩ := second
    simp_all

-----------------------------------------------------------------------------------------
-- Orders
-----------------------------------------------------------------------------------------

section Order

variable {α : Type} {span : α → Span} {items others : List α}

/-- Sorting by spans puts items in the order of their spans. -/
theorem pairwise_mergeSort (span : α → Span) (items : List α)
    : (items.mergeSort fun first second => (span first).precedes (span second)).Pairwise
        fun first second => (span first).precedes (span second) :=
  List.pairwise_mergeSort
    (fun first second third => @Span.precedes_trans (span first) (span second) (span third))
    (fun first second => @Span.precedes_total (span first) (span second)) items

/-- Where no two items have one span, there is only one order by spans. -/
theorem eq_of_perm_of_precedes
    (apart : items.Pairwise fun first second => (span first).Apart (span second))
    (same : items.Perm others)
    (sorted : items.Pairwise fun first second => (span first).precedes (span second))
    (sorted' : others.Pairwise fun first second => (span first).precedes (span second))
    : items = others := by
  refine List.Perm.eq_of_pairwise ?_ sorted sorted' same
  intro first second member member' before behind
  by_cases equal : first = second
  · exact equal
  · have symm : Std.Symm fun first second : α => (span first).Apart (span second) :=
      ⟨fun _ _ => Span.Apart.symm⟩
    have beside := apart.forall member (same.mem_iff.mpr member') equal
    exact absurd (Span.precedes_antisymm before behind) beside.1

/-- Where no two items have one span, their order by spans is unique. -/
theorem mergeSort_eq_of_perm
    (apart : items.Pairwise fun first second => (span first).Apart (span second))
    (same : items.Perm others)
    : items.mergeSort (fun first second => (span first).precedes (span second))
      = others.mergeSort (fun first second => (span first).precedes (span second)) := by
  have perm (list : List α) := List.mergeSort_perm list fun first second =>
    (span first).precedes (span second)
  exact eq_of_perm_of_precedes (apart.perm (perm items).symm Span.Apart.symm)
    ((perm items).trans (same.trans (perm others).symm)) (pairwise_mergeSort span items)
    (pairwise_mergeSort span others)

end Order

-----------------------------------------------------------------------------------------
-- Merging
-----------------------------------------------------------------------------------------

namespace MergedFixes

/-- Where no fix conflicts with one before it, all are kept and nothing is changed. -/
theorem keep_eq {kept : List Edit} {diagnostics : List Diagnostic}
    (agree : (kept.reverse ++ diagnostics.filterMap Diagnostic.fix).Pairwise
      fun first second => first.conflicts second = false)
    : keep kept diagnostics
      = ⟨diagnostics, kept.reverse ++ diagnostics.filterMap Diagnostic.fix⟩ := by
  induction diagnostics generalizing kept with
  | nil => simp [keep]
  | cons diagnostic others ih =>
      cases fixed : diagnostic.fix with
      | none =>
          rw [List.filterMap_cons_none fixed] at agree ⊢
          simp only [keep, fixed, ih agree]
      | some fix =>
          rw [List.filterMap_cons_some fixed] at agree ⊢
          have fresh : kept.any (·.conflicts fix) = false := by
            rw [List.any_eq_false]
            intro earlier member
            have apart := (List.pairwise_append.mp agree).2.2 earlier (List.mem_reverse.mpr member)
              fix List.mem_cons_self
            simp [apart]
          have moved : kept.reverse ++ fix :: others.filterMap Diagnostic.fix
              = (fix :: kept).reverse ++ others.filterMap Diagnostic.fix := by simp
          rw [moved] at agree ⊢
          simp only [keep, fixed, fresh, ih agree, Bool.false_eq_true, if_false]

/-- Violations in the order of the source. -/
def inOrder (diagnostics : List Diagnostic) : List Diagnostic :=
  diagnostics.mergeSort fun first second => first.span.precedes second.span

/-- Edits in the order of the source. -/
def editsInOrder (edits : List Edit) : List Edit :=
  edits.mergeSort fun first second => first.span.precedes second.span

theorem ofDiagnostics_eq {diagnostics : List Diagnostic}
    (apart : (diagnostics.filterMap Diagnostic.fix).Pairwise
      fun first second => first.span.Apart second.span)
    : ofDiagnostics diagnostics
      = ⟨inOrder diagnostics, editsInOrder (diagnostics.filterMap Diagnostic.fix)⟩ := by
  have agree := apart.imp fun {_ _} => Edit.not_conflicts
  simp only [ofDiagnostics, inOrder, editsInOrder, @keep_eq [] _ agree, List.reverse_nil,
    List.nil_append]

end MergedFixes

end ScriptStyle
