import ScriptStyle.Check
import ScriptStyle.FileTree
import ScriptStyle.Text.Lines

/-!
What is known of some files after they have been checked.
-/

namespace ScriptStyle

/-- A file and its violations. -/
structure FileReport where
  file : Path
  diagnostics : List Diagnostic
deriving DecidableEq, Repr, Inhabited

namespace FileReport

/-- The number of violations that have a fix. -/
def fixable (report : FileReport) : Nat :=
  fixableCount report.diagnostics

end FileReport

/-- Why a file cannot be checked. -/
inductive CheckError where
  | unreadable (cause : ReadError)
  | notAScript (cause : SyntaxError)
deriving DecidableEq, Repr, Inhabited

namespace CheckError

/-- The wording of an error. -/
def message : CheckError → String
  | unreadable cause => "failed to read file: " ++ cause.message
  | notAScript cause => cause.message

end CheckError

/-- A file that cannot be checked, and the line and column where that shows. -/
structure FileFailure where
  file : Path
  cause : CheckError
  position : Option (Nat × Nat)
deriving DecidableEq, Repr, Inhabited

namespace FileFailure

/-- The failure of a source that is no script. An offset past the end counts as the end. -/
def ofSyntaxError (file : Path) (source : String) (error : SyntaxError) : FileFailure where
  file := file
  cause := .notAScript error
  position := error.offset?.map fun offset =>
    let index := Text.LineIndex.ofText source.toList
    let offset := min offset source.utf8ByteSize
    (index.lineAt offset, index.columnAt offset)

end FileFailure

/-- The numbers of a report. -/
structure Summary where
  /-- The number of files that were looked at. -/
  total : Nat
  /-- The number of files with violations. -/
  violated : Nat := 0
  violations : Nat := 0
  /-- The number of violations that have a fix. -/
  fixable : Nat := 0
  /-- The number of edits that were made, or would be made. -/
  fixed : Nat := 0
  /-- The number of files that could not be checked. -/
  failed : Nat := 0
deriving DecidableEq, Repr, Inhabited

/-- What is known of some files. -/
structure Report where
  /-- The files with violations. -/
  files : List FileReport
  /-- The files that could not be checked. -/
  failures : List FileFailure
  summary : Summary
deriving DecidableEq, Repr, Inhabited

/-- The sum of a number that each of some things has. -/
def sumOf {α : Type} (number : α → Nat) : List α → Nat
  | [] => 0
  | first :: others => number first + sumOf number others

namespace Report

/-- Whether there is nothing to complain about. -/
def isClean (report : Report) : Bool :=
  report.summary.violations == 0 && report.failures.isEmpty

/-- A report with one more outcome, in front of the others. A file without violations adds
nothing to it. -/
def withOutcome (outcome : Except FileFailure FileReport) (report : Report) : Report :=
  match outcome with
  | .ok file =>
      if file.diagnostics.isEmpty then
        report
      else
        { report with
          files := file :: report.files
          summary :=
            { report.summary with
              violated := report.summary.violated + 1
              violations := report.summary.violations + file.diagnostics.length
              fixable := report.summary.fixable + file.fixable } }
  | .error failure => { report with failures := failure :: report.failures }

/-- The report on files with the given outcomes. -/
def ofOutcomes (outcomes : List (Except FileFailure FileReport)) : Report :=
  let report := outcomes.foldr withOutcome ⟨[], [], { total := outcomes.length }⟩
  { report with summary := { report.summary with failed := report.failures.length } }

end Report

namespace Style

/-- The report on a source that belongs to a file. -/
def checkSource (style : Style) (file : Path) (source : String)
    : Except FileFailure FileReport :=
  match style.check source with
  | .ok found => .ok ⟨file, found.diagnostics⟩
  | .error error => .error (.ofSyntaxError file source error)

/-- The report on a file of a tree. -/
def checkFile (style : Style) (tree : FileTree) (file : Path) : Except FileFailure FileReport :=
  match tree.read file with
  | .ok source => style.checkSource file source
  | .error cause => .error ⟨file, .unreadable cause, none⟩

/-- The report on files of a tree. -/
def checkFiles (style : Style) (tree : FileTree) (files : List Path) : Report :=
  .ofOutcomes (files.map (style.checkFile tree))

end Style

end ScriptStyle
