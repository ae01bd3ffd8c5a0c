import ScriptStyle.Report

/-!
Fixing the files of a tree, one after the other, and the report on them afterwards.
-/

namespace ScriptStyle

/-- A file after fixing. -/
structure FixedFile where
  file : Path
  /-- The number of edits. -/
  fixCount : Nat
  /-- The violations that are left. -/
  remaining : List Diagnostic
  /-- Whether the file has been given another text. -/
  isWritten : Bool
deriving DecidableEq, Repr, Inhabited

/-- Why a file is passed over. -/
inductive FixError where
  | unreadable (file : Path) (cause : ReadError)
  | notAScript (cause : SyntaxError)
deriving DecidableEq, Repr, Inhabited

namespace FixError

/-- The wording of an error. -/
def message : FixError → String
  | unreadable file cause => "failed to read " ++ file.text ++ ": " ++ cause.message
  | notAScript cause => cause.message

end FixError

/-- What has become of a file that was to be fixed. -/
structure FixOutcome where
  file : Path
  result : Except FixError FixedFile

/-- Some files after fixing, in order, and the tree they are in. -/
structure FixedTree where
  tree : FileTree
  outcomes : List FixOutcome

namespace Style

/-- Fixes a file of a tree. In a dry run nothing is written. -/
def fixFile (style : Style) (isDry : Bool) (tree : FileTree) (file : Path)
    : FileTree × Except FixError FixedFile :=
  match tree.read file with
  | .error cause => (tree, .error (.unreadable file cause))
  | .ok source =>
      match style.fix source with
      | .error error => (tree, .error (.notAScript error))
      | .ok fixed =>
          let isWritten := !isDry && decide (0 < fixed.fixCount) && fixed.output != source
          (if isWritten then tree.write file fixed.output else tree,
            .ok ⟨file, fixed.fixCount, fixed.remaining, isWritten⟩)

/-- Fixes files of a tree in order. -/
def fixFiles (style : Style) (isDry : Bool) (tree : FileTree) : List Path → FixedTree
  | [] => ⟨tree, []⟩
  | file :: others =>
      let (tree, result) := style.fixFile isDry tree file
      let rest := style.fixFiles isDry tree others
      ⟨rest.tree, ⟨file, result⟩ :: rest.outcomes⟩

end Style

namespace FixedTree

/-- The files that have been fixed. -/
def fixed (result : FixedTree) : List FixedFile :=
  result.outcomes.filterMap fun outcome => outcome.result.toOption

end FixedTree

namespace Report

/-- The files of a report that have a fix. -/
def targets (report : Report) : List Path :=
  (report.files.filter fun file => decide (0 < file.fixable)).map FileReport.file

/-- File reports after a file has been fixed: the first at its path has the violations left. -/
def withRemaining (fixed : FixedFile) : List FileReport → List FileReport
  | [] => []
  | file :: others =>
      if file.file.isSame fixed.file then
        { file with diagnostics := fixed.remaining } :: others
      else
        file :: withRemaining fixed others

/-- A report after files have been fixed. In a dry run only the number of edits is noted. -/
def afterFixes (report : Report) (isDry : Bool) (fixed : List FixedFile) : Report :=
  let summary := { report.summary with fixed := sumOf FixedFile.fixCount fixed }
  if isDry then
    { report with summary }
  else
    let updated := fixed.foldl (fun files found => withRemaining found files) report.files
    let files := updated.filter fun file => !file.diagnostics.isEmpty
    { report with
      files
      summary :=
        { summary with
          violated := files.length
          violations := sumOf (fun file => file.diagnostics.length) files
          fixable := sumOf FileReport.fixable files } }

end Report

namespace FixOutcome

/-- What is said about a file that was to be fixed; nothing if it was left as it is. -/
def textLine (isDry : Bool) (outcome : FixOutcome) : String :=
  let file := outcome.file.display
  match outcome.result with
  | .error error => "  Skip: " ++ file ++ ": " ++ error.message ++ "\n"
  | .ok fixed =>
      if isDry then
        "  Would apply " ++ toString fixed.fixCount ++ " fixes to " ++ file ++ " ("
          ++ toString fixed.remaining.length ++ " violations left)\n"
      else if fixed.isWritten then
        "  Fixed: " ++ file ++ " (" ++ toString fixed.fixCount ++ " fixes)\n"
      else
        ""

end FixOutcome

/-- What is said about fixing some files. -/
def fixText (isDry isVerbose : Bool) (outcomes : List FixOutcome) : String :=
  let heading :=
    if isDry then "[DRY-RUN] Fixes that would be applied:\n"
    else if isVerbose then "Applying style fixes...\n"
    else ""
  if outcomes.isEmpty then
    heading ++ (if isDry || isVerbose then "  Nothing to fix.\n" else "")
  else
    heading ++ String.join (outcomes.map (FixOutcome.textLine isDry))

end ScriptStyle
