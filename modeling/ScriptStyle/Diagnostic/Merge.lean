import ScriptStyle.Diagnostic

/-!
Choosing edits that can be made together. The fix of a violation is dropped when it conflicts
with one that was kept for an earlier violation; the violation itself stays.
-/

namespace ScriptStyle

/-- Violations, and the fixes that are kept of them. -/
structure MergedFixes where
  diagnostics : List Diagnostic
  edits : List Edit
deriving DecidableEq, Repr

namespace MergedFixes

/-- Keeps the fixes that conflict with none of the edits kept so far, the last kept first. -/
def keep (kept : List Edit) : List Diagnostic → MergedFixes
  | [] => ⟨[], kept.reverse⟩
  | diagnostic :: others =>
      match diagnostic.fix with
      | none =>
          let rest := keep kept others
          { rest with diagnostics := diagnostic :: rest.diagnostics }
      | some fix =>
          if kept.any (·.conflicts fix) then
            let rest := keep kept others
            { rest with diagnostics := { diagnostic with fix := none } :: rest.diagnostics }
          else
            let rest := keep (fix :: kept) others
            { rest with diagnostics := diagnostic :: rest.diagnostics }

/-- Violations in the order of the source, and the edits that are kept of their fixes. -/
def ofDiagnostics (diagnostics : List Diagnostic) : MergedFixes :=
  let merged := keep [] diagnostics
  { diagnostics := merged.diagnostics.mergeSort fun first second => first.span.precedes second.span
    edits := merged.edits.mergeSort fun first second => first.span.precedes second.span }

end MergedFixes

end ScriptStyle
