import ScriptStyle.Json.Writer
import ScriptStyle.Report

/-!
Reports as trees of values. Parts that are not known are left out.
-/

namespace ScriptStyle

namespace Json

/-- A member that is left out if it has no value. -/
def optionalMember {α : Type} (name : String) (encode : α → Json) (value : Option α)
    : List (String × Json) :=
  (value.map fun found => (name, encode found)).toList

end Json

namespace Edit

/-- An edit as a tree of values. -/
def toJson (edit : Edit) : Json :=
  .object ([("start_byte", .ofNat edit.span.start), ("end_byte", .ofNat edit.span.stop),
    ("replacement", .string edit.replacement)]
    ++ Json.optionalMember "description" Json.string edit.description)

end Edit

namespace Diagnostic

/-- A violation as a tree of values. -/
def toJson (diagnostic : Diagnostic) : Json :=
  .object ([("rule_id", .string diagnostic.rule.name),
      ("message_id", .string diagnostic.problem.name)]
    ++ Json.optionalMember "description" Json.string diagnostic.description
    ++ [("message", .string diagnostic.message), ("start_byte", .ofNat diagnostic.span.start),
      ("end_byte", .ofNat diagnostic.span.stop), ("line", .ofNat diagnostic.line),
      ("col", .ofNat diagnostic.column)]
    ++ Json.optionalMember "fix" Edit.toJson diagnostic.fix)

end Diagnostic

namespace FileReport

/-- The report on a file as a tree of values. -/
def toJson (report : FileReport) : Json :=
  .object [("file", .string report.file.text),
    ("diagnostics", .array (report.diagnostics.map Diagnostic.toJson))]

end FileReport

namespace FileFailure

/-- A failure as a tree of values. -/
def toJson (failure : FileFailure) : Json :=
  .object ([("file", .string failure.file.text), ("error", .string failure.cause.message)]
    ++ Json.optionalMember "line" Json.ofNat (failure.position.map Prod.fst)
    ++ Json.optionalMember "col" Json.ofNat (failure.position.map Prod.snd))

end FileFailure

namespace Summary

/-- The numbers of a report as a tree of values. -/
def toJson (summary : Summary) : Json :=
  .object [("total_files", .ofNat summary.total), ("files_with_violations", .ofNat summary.violated),
    ("violations", .ofNat summary.violations), ("fixable", .ofNat summary.fixable),
    ("fixed", .ofNat summary.fixed), ("parse_errors_count", .ofNat summary.failed)]

end Summary

namespace Report

/-- A report as a tree of values. -/
def toJson (report : Report) : Json :=
  .object [("files", .array (report.files.map FileReport.toJson)),
    ("parse_errors", .array (report.failures.map FileFailure.toJson)),
    ("analysis_summary", report.summary.toJson)]

end Report

end ScriptStyle
