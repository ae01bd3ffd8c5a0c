import Mathlib.Data.List.Basic
import ScriptStyle.Fix

/-!
Reports patched after fixing. The numbers of a report are always those that can be counted from
its lists, and where each fix describes what is left in its file, the patched lists are those of a
report on the files as they are afterwards.
-/

namespace ScriptStyle

theorem sumOf_map {α β : Type} (number : β → Nat) (image : α → β) (things : List α)
    : sumOf number (things.map image) = sumOf (number ∘ image) things := by
  induction things with
  | nil => rfl
  | cons first others ih => rw [List.map_cons, sumOf, sumOf, ih, Function.comp_apply]

namespace Report

-----------------------------------------------------------------------------------------
-- The numbers of a report
-----------------------------------------------------------------------------------------

/-- The report with some lists, its numbers counted from them. -/
def counted (total fixed : Nat) (files : List FileReport) (failures : List FileFailure)
    : Report where
  files := files
  failures := failures
  summary :=
    { total
      violated := files.length
      violations := sumOf (fun file => file.diagnostics.length) files
      fixable := sumOf FileReport.fixable files
      fixed
      failed := failures.length }

/-- The entry that an outcome adds to the files with violations. -/
def violated? : Except FileFailure FileReport → Option FileReport
  | .ok file => if file.diagnostics.isEmpty then none else some file
  | .error _ => none

theorem violated?_of_clean {report : FileReport} (clean : report.diagnostics = [])
    : violated? (.ok report) = none := by
  simp [violated?, clean]

theorem violated?_of_found {report : FileReport} (found : report.diagnostics ≠ [])
    : violated? (.ok report) = some report := by
  simp [violated?, found]

/-- The entry that an outcome adds to the files that could not be checked. -/
def failure? : Except FileFailure FileReport → Option FileFailure
  | .ok _ => none
  | .error failure => some failure

/-- Outcome by outcome the numbers grow with the lists, except that of the failures. -/
theorem foldr_withOutcome (total : Nat) (outcomes : List (Except FileFailure FileReport))
    : outcomes.foldr withOutcome ⟨[], [], { total }⟩
      = let report := counted total 0 (outcomes.filterMap violated?) (outcomes.filterMap failure?)
        { report with summary := { report.summary with failed := 0 } } := by
  induction outcomes with
  | nil => rfl
  | cons outcome others ih =>
      rw [List.foldr_cons, ih]
      cases outcome with
      | error failure => rfl
      | ok file =>
          by_cases clean : file.diagnostics.isEmpty
          · simp [withOutcome, List.filterMap_cons, violated?, failure?, clean]
          · simp [withOutcome, List.filterMap_cons, violated?, failure?, clean, counted, sumOf,
              Nat.add_comm]

theorem ofOutcomes_eq (outcomes : List (Except FileFailure FileReport))
    : ofOutcomes outcomes
      = counted outcomes.length 0 (outcomes.filterMap violated?) (outcomes.filterMap failure?) := by
  rw [ofOutcomes, foldr_withOutcome]
  rfl

/-- Patching a report with counted numbers gives one with counted numbers. -/
theorem afterFixes_counted (total before : Nat) (files : List FileReport)
    (failures : List FileFailure) (fixed : List FixedFile)
    : (counted total before files failures).afterFixes false fixed
      = counted total (sumOf FixedFile.fixCount fixed)
          ((fixed.foldl (fun files found => withRemaining found files) files).filter
            fun file => !file.diagnostics.isEmpty)
          failures := by
  rfl

-----------------------------------------------------------------------------------------
-- The lists of a report
-----------------------------------------------------------------------------------------

/-- What is known of a file before it is fixed, its fix if it has one, and what is known of the
file afterwards. -/
inductive Mended (file : Path)
    : Except FileFailure FileReport → Option FixedFile → Except FileFailure FileReport → Prop
  | failed (failure : FileFailure) : Mended file (.error failure) none (.error failure)
  | kept (diagnostics : List Diagnostic)
      : Mended file (.ok ⟨file, diagnostics⟩) none (.ok ⟨file, diagnostics⟩)
  | fixed {diagnostics : List Diagnostic} {fix : FixedFile} (found : diagnostics ≠ [])
      (here : fix.file = file)
      : Mended file (.ok ⟨file, diagnostics⟩) (some fix) (.ok ⟨file, fix.remaining⟩)

theorem Mended.file_eq {file : Path} {outcome outcome' : Except FileFailure FileReport}
    {fix : FixedFile} (mended : Mended file outcome (some fix) outcome')
    : fix.file = file := by
  cases mended with
  | fixed _ here => exact here

/-- Fixes of other files leave the first file report as it is. -/
theorem foldl_withRemaining_cons {fixes : List FixedFile} (report : FileReport)
    (others : List FileReport) (apart : ∀ fix ∈ fixes, ¬report.file.isSame fix.file)
    : fixes.foldl (fun files found => withRemaining found files) (report :: others)
      = report :: fixes.foldl (fun files found => withRemaining found files) others := by
  induction fixes generalizing others with
  | nil => rfl
  | cons fix later ih =>
      have apart' := apart fix List.mem_cons_self
      rw [List.foldl_cons, withRemaining, if_neg apart',
        ih _ fun other member => apart other (List.mem_cons_of_mem _ member), List.foldl_cons]

variable {before after : Path → Except FileFailure FileReport} {fix : Path → Option FixedFile}
  {files : List Path}

/-- A patched report has the files with violations that a report afterwards has.

The induction is on the files: the fixes of the others do not touch the report on the first, and
its own fix comes before them. -/
theorem files_of_mended
    (once : files.Pairwise fun first second => ¬first.isSame second)
    (mended : ∀ file ∈ files, Mended file (before file) (fix file) (after file))
    : ((files.filterMap fix).foldl (fun files found => withRemaining found files)
          (files.filterMap fun file => violated? (before file))).filter
        (fun file => !file.diagnostics.isEmpty)
      = files.filterMap fun file => violated? (after file) := by
  induction files with
  | nil => rfl
  | cons file others ih =>
      obtain ⟨alone, once⟩ := List.pairwise_cons.mp once
      have mended' := fun other member => mended other (List.mem_cons_of_mem _ member)
      have ih := ih once mended'
      have apart : ∀ found ∈ others.filterMap fix, ¬file.isSame found.file := by
        intro found member
        obtain ⟨other, present, fixes⟩ := List.mem_filterMap.mp member
        have own := (fixes ▸ mended' other present).file_eq
        exact own ▸ alone other present
      have front (diagnostics : List Diagnostic) (rest : List FileReport) :=
        foldl_withRemaining_cons ⟨file, diagnostics⟩ rest apart
      have own := mended file List.mem_cons_self
      simp only [List.filterMap_cons]
      generalize before file = outcome, fix file = found, after file = outcome' at own
      cases own with
      | failed failure => exact ih
      | kept diagnostics =>
          by_cases clean : diagnostics = []
          · simpa [violated?_of_clean, clean] using ih
          · simp [violated?_of_found, front, clean, ih]
      | @fixed diagnostics fix found here =>
          have patched (rest : List FileReport)
              : withRemaining fix (⟨file, diagnostics⟩ :: rest) = ⟨file, fix.remaining⟩ :: rest := by
            simp [withRemaining, here, Path.isSame]
          by_cases clean : fix.remaining = []
          · simp [violated?_of_found, violated?_of_clean, patched, front, found, clean, ih]
          · simp [violated?_of_found, patched, front, found, clean, ih]

/-- Fixing does not change which files cannot be checked. -/
theorem failures_of_mended
    (mended : ∀ file ∈ files, Mended file (before file) (fix file) (after file))
    : (files.filterMap fun file => failure? (before file))
      = files.filterMap fun file => failure? (after file) := by
  refine List.filterMap_congr fun file member => ?_
  have own := mended file member
  generalize before file = outcome, fix file = found, after file = outcome' at own
  cases own <;> rfl

end Report

end ScriptStyle
