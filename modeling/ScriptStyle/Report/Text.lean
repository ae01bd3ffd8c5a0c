import ScriptStyle.Report
import ScriptStyle.Report.Table

/-!
Reports as texts to be read: every violation on a line, then tables.
-/

namespace ScriptStyle

namespace Diagnostic

/-- A violation in a file, on a line of its own. -/
def textLine (file : String) (diagnostic : Diagnostic) : String :=
  file ++ ":" ++ toString diagnostic.line ++ ":" ++ toString diagnostic.column ++ ": "
    ++ diagnostic.message ++ " [" ++ diagnostic.rule.name ++ "]"
    ++ (if diagnostic.isFixable then " (fixable)" else "") ++ "\n"

end Diagnostic

namespace FileFailure

/-- A failure as a row of a table. -/
def row (failure : FileFailure) : List Cell :=
  let place :=
    match failure.position with
    | some (line, column) => toString line ++ ":" ++ toString column
    | none => "-"
  [failure.file.display, place, failure.cause.message].map Cell.ofText

end FileFailure

namespace Summary

/-- The numbers, as a table. -/
def text (summary : Summary) : String :=
  let numbers := [summary.total, summary.violated, summary.violations, summary.fixable,
    summary.fixed, summary.failed]
  let table : Table :=
    { headings := ["Files", "With violations", "Violations", "Fixable", "Fixed",
        "Parse errors"].map Cell.ofText
      rows := [numbers.map fun number => Cell.ofText (toString number)] }
  "\n" ++ table.draw ++ "\n"

/-- The numbers on one line. -/
def line (summary : Summary) : String :=
  "[SUMMARY] " ++ toString summary.violations ++ " violations (" ++ toString summary.fixable
    ++ " fixable) in " ++ toString summary.violated ++ " of " ++ toString summary.total
    ++ " files, " ++ toString summary.failed ++ " parse errors\n"

end Summary

namespace Report

/-- The violations, a line for each. -/
def violationText (report : Report) : String :=
  String.join (report.files.map fun file =>
    String.join (file.diagnostics.map (Diagnostic.textLine file.file.display)))

/-- The files that could not be checked, as a table if there are any. -/
def failureText (report : Report) : String :=
  if report.failures.isEmpty then
    ""
  else
    let table : Table :=
      { headings := ["File", "Location", "Error"].map Cell.ofText
        rows := report.failures.map FileFailure.row }
    "\nParse Errors\n" ++ table.draw ++ "\n"

/-- The whole report. -/
def text (report : Report) : String :=
  if report.isClean then
    "✓ All clean! No style violations found.\n" ++ report.summary.text
  else
    report.violationText ++ report.failureText ++ report.summary.text

end Report

end ScriptStyle
