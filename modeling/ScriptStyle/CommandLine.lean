import ScriptStyle.Arguments
import ScriptStyle.Fix
import ScriptStyle.Report.Json
import ScriptStyle.Report.Text
import ScriptStyle.ScriptSearch
import ScriptStyle.Settings.File

/-!
What a command line does to a tree of files, what it prints and how it ends.
-/

namespace ScriptStyle

/-- How a command line ends. -/
structure RunResult where
  exitCode : Nat
  output : String
  /-- What went wrong, for the reader at the terminal. -/
  complaint : String := ""
  /-- The files afterwards. -/
  tree : FileTree
deriving Inhabited

/-- Why a command line cannot be carried out at all. -/
inductive RunError where
  /-- The settings file that was asked for cannot be used. -/
  | settings (path : Path) (cause : SettingsError)
deriving DecidableEq, Repr, Inhabited

namespace RunError

/-- The wording of an error. -/
def message : RunError → String
  | settings path _ => "failed to load configuration " ++ path.text

end RunError

/-- The name of the program and its version. -/
def versionText : String :=
  "semiquote 0.3.1\n"

/-- The text that explains the command line. -/
def helpText : String :=
  String.intercalate "\n" [
    "semiquote - quote and semicolon style checker and fixer for JavaScript",
    "",
    "Usage: semiquote [OPTIONS] [PATHS]...",
    "",
    "Arguments:",
    "  [PATHS]...  Files or directories to check. The current directory if there are none",
    "",
    "Options:",
    "      --fix                              Rewrite files with every safe fix applied",
    "      --dry-run                          With --fix, report what would change",
    "      --quotes <QUOTES>                  single, double or backtick",
    "      --avoid-escape                     Allow the other quotes when that avoids escaping",
    "      --allow-template-literals <WHEN>   always, never or avoid-escape",
    "      --ignore-string-literals           Leave plain string literals alone",
    "      --semi <SEMI>                      always or never",
    "      --before-statement-continuation-chars <WHEN>  always, any or never",
    "      --omit-last-in-one-line-block      Drop the last semicolon of a one-line block",
    "      --omit-last-in-one-line-class-body Drop the last semicolon of a one-line class body",
    "      --disable <RULE>                   Disable a rule: quotes or semi",
    "      --exclude <NAME>                   Folders to exclude",
    "      --config <FILE>                    Configuration file to use",
    "      --json                             Output raw JSON",
    "  -v, --verbose                          Say more",
    "  -q, --quiet                            Show only the summary line",
    "  -h, --help                             Print help",
    "  -V, --version                          Print version",
    "",
    "Defaults are read from .semiquote.toml or the \x22semiquote\x22 key of package.json.",
    ""]

namespace Arguments

/-- The paths to check; the working folder if none are given. -/
def roots (arguments : Arguments) : List Path :=
  if arguments.paths.isEmpty then [⟨"."⟩] else arguments.paths

/-- The settings of a command line: those of the file that is asked for, or of the nearest one
around the first path, and what the command line says itself. -/
def settings (arguments : Arguments) (tree : FileTree) : Except RunError Settings := do
  let loaded ←
    match arguments.settingsFile with
    | some path =>
        match Settings.load tree path with
        | .ok loaded => .ok loaded
        | .error cause => .error (.settings path cause)
    | none => .ok (Settings.discover tree (arguments.paths.head?.getD ⟨"."⟩))
  pure (arguments.override loaded.settings)

end Arguments

/-- A sorted list of paths, without those that are the same as the one before them. -/
def withoutRepeats (previous : Option Path) : List Path → List Path
  | [] => []
  | path :: others =>
      let rest := withoutRepeats (some path) others
      if previous.any (·.isSame path) then rest else path :: rest

namespace FileTree

/-- The scripts that some paths stand for, each once and in order. -/
def allScripts (tree : FileTree) (excluded : List String) (roots : List Path) : List Path :=
  let found := roots.flatMap fun root => (tree.scripts excluded root).files
  withoutRepeats none (found.mergeSort Path.precedes)

end FileTree

namespace Report

/-- A report in the form that is asked for. -/
def render (report : Report) (arguments : Arguments) : String :=
  if arguments.json then report.toJson.pretty ++ "\n"
  else if arguments.quiet then report.summary.line
  else report.text

/-- The exit code that goes with a report. -/
def exitCode (report : Report) : Nat :=
  if report.isClean then 0 else 1

end Report

/-- Checks files, and fixes them if that is asked for. -/
def runChecks (tree : FileTree) (arguments : Arguments) (settings : Settings) : RunResult :=
  let style := settings.style
  let files := tree.allScripts (settings.excludeFolders.getD []) arguments.roots
  let report := style.checkFiles tree files
  if arguments.fix then
    let fixed := style.fixFiles arguments.dryRun tree report.targets
    let after := report.afterFixes arguments.dryRun fixed.fixed
    let said :=
      if arguments.json then "" else fixText arguments.dryRun arguments.verbose fixed.outcomes
    { exitCode := after.exitCode, output := said ++ after.render arguments, tree := fixed.tree }
  else
    { exitCode := report.exitCode, output := report.render arguments, tree }

/-- What a command line does. Arguments that are wrong, and paths that lead nowhere, end it with
nothing printed. -/
def run (tree : FileTree) (texts : List String) : Except RunError RunResult :=
  match Arguments.parse texts with
  | .error .help => .ok { exitCode := 0, output := helpText, tree }
  | .error .version => .ok { exitCode := 0, output := versionText, tree }
  | .error stop =>
      .ok { exitCode := 1, output := "", complaint := "error: " ++ stop.message ++ "\n", tree }
  | .ok arguments => do
      let settings ← arguments.settings tree
      match arguments.roots.find? (!tree.contains ·) with
      | none => pure (runChecks tree arguments settings)
      | some missing =>
          let complaint :=
            "Error: the file or directory '" ++ missing.text ++ "' does not exist\n"
          pure { exitCode := 1, output := "", complaint, tree }

end ScriptStyle
