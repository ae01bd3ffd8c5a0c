import ScriptStyle.Path
import ScriptStyle.Settings

/-!
Command line arguments. Long options take their value after an equals sign or as the next
argument, short flags may be joined, and two hyphens end the options. The value of an option is
looked at when the argument after it has been understood.
-/

namespace ScriptStyle

/-- What a command line asks for. -/
structure Arguments where
  /-- The files and folders to check. -/
  paths : List Path := []
  fix : Bool := false
  dryRun : Bool := false
  json : Bool := false
  verbose : Bool := false
  quiet : Bool := false
  /-- The settings file to use instead of the nearest one. -/
  settingsFile : Option Path := none
  quotes : QuoteSettings := {}
  semicolons : SemicolonSettings := {}
  /-- The rules that are not applied. -/
  disabled : List RuleId := []
  /-- Patterns of names that are not looked at. -/
  excluded : List String := []
deriving Repr, Inhabited

/-- Why a command line does not lead to a check. -/
inductive ArgumentStop where
  /-- The help was asked for. -/
  | help
  /-- The version was asked for. -/
  | version
  | unknownArgument (argument : String)
  /-- A value that the option or path does not allow, or none at all. -/
  | invalidValue (argument : String)
  /-- An option that may stand once is repeated, or two options exclude each other. -/
  | conflict (argument : String)
  /-- An option needs another one. -/
  | missingOption (needed : String)
  /-- A flag has a value. -/
  | unneededValue (argument : String)
deriving DecidableEq, Repr, Inhabited

namespace ArgumentStop

/-- The wording of a stop. -/
def message : ArgumentStop → String
  | help => "help"
  | version => "version"
  | unknownArgument argument => "unexpected argument '" ++ argument ++ "' found"
  | invalidValue argument => "invalid or missing value for '" ++ argument ++ "'"
  | conflict argument => "the argument '" ++ argument ++ "' cannot be used with another one"
  | missingOption needed => "the argument '" ++ needed ++ "' was not provided"
  | unneededValue argument => "unexpected value for '" ++ argument ++ "' found"

end ArgumentStop

/-- Options without a value. -/
inductive Flag where
  | fix
  | dryRun
  | json
  | verbose
  | quiet
  | avoidEscape
  | ignoreStrings
  | omitLastInBlock
  | omitLastInClassBody
  | help
  | version
deriving DecidableEq, Repr, Inhabited

namespace Flag

/-- All flags. -/
def all : List Flag :=
  [fix, dryRun, json, verbose, quiet, avoidEscape, ignoreStrings, omitLastInBlock,
    omitLastInClassBody, help, version]

/-- The long name of a flag. -/
def name : Flag → String
  | fix => "fix"
  | dryRun => "dry-run"
  | json => "json"
  | verbose => "verbose"
  | quiet => "quiet"
  | avoidEscape => "avoid-escape"
  | ignoreStrings => "ignore-string-literals"
  | omitLastInBlock => "omit-last-in-one-line-block"
  | omitLastInClassBody => "omit-last-in-one-line-class-body"
  | help => "help"
  | version => "version"

/-- The short name of a flag. -/
def letter? : Flag → Option Char
  | verbose => some 'v'
  | quiet => some 'q'
  | help => some 'h'
  | version => some 'V'
  | _ => none

end Flag

/-- Options with a value. -/
inductive ValueOption where
  | quotes
  | templates
  | semicolons
  | beforeContinuation
  | disable
  | exclude
  | settingsFile
deriving DecidableEq, Repr, Inhabited

namespace ValueOption

/-- All options with a value. -/
def all : List ValueOption :=
  [quotes, templates, semicolons, beforeContinuation, disable, exclude, settingsFile]

/-- The long names of an option. -/
def names : ValueOption → List String
  | quotes => ["quotes"]
  | templates => ["allow-template-literals"]
  | semicolons => ["semi"]
  | beforeContinuation => ["before-statement-continuation-chars"]
  | disable => ["disable"]
  | exclude => ["exclude", "exclude-folder"]
  | settingsFile => ["config"]

/-- The name of an option in messages. -/
def name (option : ValueOption) : String :=
  option.names.head?.getD ""

/-- Whether an option may be given several times. -/
def isRepeatable : ValueOption → Bool
  | disable | exclude => true
  | _ => false

end ValueOption

/-- An argument whose value has not been looked at yet. -/
inductive PendingArgument where
  | none
  /-- An option, with its value if that has come. -/
  | option (option : ValueOption) (value : Option String)
  | paths (texts : List String)
deriving DecidableEq, Repr, Inhabited

/-- What has been read of a command line. -/
structure ArgumentState where
  arguments : Arguments := {}
  /-- The flags given so far. -/
  flags : List Flag := []
  /-- The options given so far. -/
  options : List ValueOption := []
  pending : PendingArgument := .none
  /-- Whether two hyphens have ended the options. -/
  isEnded : Bool := false
deriving Inhabited

namespace Arguments

/-- The value that a word names, if it names one. -/
def valueNamed {α : Type} (option : ValueOption) (choices : List (String × α)) (word : String)
    : Except ArgumentStop α :=
  match choices.find? fun choice => choice.1 == word with
  | some choice => .ok choice.2
  | none => .error (.invalidValue option.name)

/-- The words for the styles of quotes. -/
def quoteChoices : List (String × QuoteStyle) :=
  QuoteStyle.all.map fun style => (style.name, style)

/-- The words for the policies on templates. -/
def templateChoices : List (String × TemplatePolicy) :=
  [("always", .always), ("never", .never), ("avoid-escape", .avoidEscape),
    ("avoidEscape", .avoidEscape)]

/-- The words for the modes of semicolons. -/
def semicolonChoices : List (String × SemicolonMode) :=
  [SemicolonMode.always, .never].map fun mode => (mode.name, mode)

/-- The words for what happens before lines that could continue a statement. -/
def continuationChoices : List (String × ContinuationPolicy) :=
  [ContinuationPolicy.always, .any, .never].map fun policy => (policy.name, policy)

/-- The names of the rules. -/
def ruleChoices : List (String × RuleId) :=
  RuleId.all.map fun rule => (rule.name, rule)

/-- The path that a text states. The empty text states none. -/
def pathOf (argument text : String) : Except ArgumentStop Path :=
  if text.isEmpty then .error (.invalidValue argument) else .ok ⟨text⟩

/-- Arguments with the value of an option. -/
def setOption (arguments : Arguments) (option : ValueOption) (word : String)
    : Except ArgumentStop Arguments :=
  match option with
  | .quotes => do
      let style ← valueNamed option quoteChoices word
      pure { arguments with quotes := { arguments.quotes with style := some style } }
  | .templates => do
      let policy ← valueNamed option templateChoices word
      pure { arguments with quotes := { arguments.quotes with templates := some policy } }
  | .semicolons => do
      let mode ← valueNamed option semicolonChoices word
      pure { arguments with semicolons := { arguments.semicolons with mode := some mode } }
  | .beforeContinuation => do
      let policy ← valueNamed option continuationChoices word
      pure { arguments with
        semicolons := { arguments.semicolons with beforeContinuation := some policy } }
  | .disable => do
      let rule ← valueNamed option ruleChoices word
      pure { arguments with disabled := arguments.disabled ++ [rule] }
  | .exclude => .ok { arguments with excluded := arguments.excluded ++ [word] }
  | .settingsFile => do
      let path ← pathOf option.name word
      pure { arguments with settingsFile := some path }

/-- Arguments with a flag, unless the flag asks for a text only. -/
def setFlag (arguments : Arguments) (flag : Flag) : Except ArgumentStop Arguments :=
  match flag with
  | .fix => .ok { arguments with fix := true }
  | .dryRun => .ok { arguments with dryRun := true }
  | .json => .ok { arguments with json := true }
  | .verbose => .ok { arguments with verbose := true }
  | .quiet => .ok { arguments with quiet := true }
  | .avoidEscape =>
      .ok { arguments with quotes := { arguments.quotes with avoidEscape := some true } }
  | .ignoreStrings =>
      .ok { arguments with quotes := { arguments.quotes with ignoreStrings := some true } }
  | .omitLastInBlock =>
      .ok { arguments with
        semicolons := { arguments.semicolons with omitLastInBlock := some true } }
  | .omitLastInClassBody =>
      .ok { arguments with
        semicolons := { arguments.semicolons with omitLastInClassBody := some true } }
  | .help => .error .help
  | .version => .error .version

end Arguments

namespace ArgumentState

/-- Takes the value of an option. -/
def takeOption (state : ArgumentState) (option : ValueOption) (value : Option String)
    : Except ArgumentStop ArgumentState :=
  match value with
  | none => .error (.invalidValue option.name)
  | some word =>
      if state.options.contains option && !option.isRepeatable then
        .error (.conflict option.name)
      else do
        let arguments ← state.arguments.setOption option word
        pure { state with arguments, options := option :: state.options }

/-- Looks at the value of the argument that was read last. -/
def settle (state : ArgumentState) : Except ArgumentStop ArgumentState :=
  let settled := { state with pending := .none }
  match state.pending with
  | .none => .ok settled
  | .option option value => settled.takeOption option value
  | .paths texts => do
      let paths ← texts.mapM (Arguments.pathOf "paths")
      pure { settled with
        arguments := { settled.arguments with paths := settled.arguments.paths ++ paths } }

/-- Takes a flag. -/
def takeFlag (state : ArgumentState) (flag : Flag) : Except ArgumentStop ArgumentState := do
  let state ← state.settle
  let arguments ← state.arguments.setFlag flag
  if state.flags.contains flag then
    .error (.conflict flag.name)
  else
    .ok { state with arguments, flags := flag :: state.flags }

/-- Takes short flags that are joined. -/
def takeLetters (state : ArgumentState) : List Char → Except ArgumentStop ArgumentState
  | [] => .ok state
  | letter :: others =>
      match Flag.all.find? fun flag => flag.letter? == some letter with
      | none => .error (.unknownArgument ("-" ++ letter.toString))
      | some flag => do
          let state ← state.takeFlag flag
          state.takeLetters others

/-- Takes a long option, with the value after its equals sign if there is one. -/
def takeLong (state : ArgumentState) (name : String) (value : Option String)
    : Except ArgumentStop ArgumentState :=
  match ValueOption.all.find? fun option => option.names.contains name with
  | some option => do
      let state ← state.settle
      match value with
      | some word => state.takeOption option (some word)
      | none => pure { state with pending := .option option none }
  | none =>
      match Flag.all.find? fun flag => flag.name == name with
      | none => .error (.unknownArgument ("--" ++ name))
      | some flag => if value.isSome then .error (.unneededValue name) else state.takeFlag flag

/-- Takes a path. -/
def takePath (state : ArgumentState) (text : String) : Except ArgumentStop ArgumentState :=
  match state.pending with
  | .paths texts => .ok { state with pending := .paths (texts ++ [text]) }
  | _ => do
      let state ← state.settle
      pure { state with pending := .paths [text] }

/-- Takes an argument. -/
def take (state : ArgumentState) (argument : String) : Except ArgumentStop ArgumentState :=
  if state.isEnded then
    state.takePath argument
  else
    match argument.toList with
    | ['-', '-'] => .ok { state with isEnded := true }
    | '-' :: '-' :: text =>
        let name := String.ofList (text.takeWhile (· != '='))
        match text.dropWhile (· != '=') with
        | _ :: value => state.takeLong name (some (String.ofList value))
        | [] => state.takeLong name none
    | '-' :: letter :: letters => state.takeLetters (letter :: letters)
    | _ =>
        match state.pending with
        | .option option none => .ok { state with pending := .option option (some argument) }
        | _ => state.takePath argument

end ArgumentState

namespace Arguments

/-- Options that do not go together, or that need another one. -/
def checkTogether (arguments : Arguments) : Except ArgumentStop Arguments :=
  if arguments.quiet && arguments.verbose then
    .error (.conflict Flag.quiet.name)
  else if arguments.dryRun && !arguments.fix then
    .error (.missingOption Flag.fix.name)
  else
    .ok arguments

/-- What a list of arguments asks for. -/
def parse (texts : List String) : Except ArgumentStop Arguments := do
  let state ← texts.foldlM ArgumentState.take {}
  let state ← state.settle
  state.arguments.checkTogether

/-- Settings in which what a command line says goes before what a file says. -/
def override (arguments : Arguments) (settings : Settings) : Settings :=
  let quotes := settings.quotes.getD {}
  let semicolons := settings.semicolons.getD {}
  let disabled := arguments.disabled.map RuleId.name
  { excludeFolders := some (settings.excludeFolders.getD [] ++ arguments.excluded)
    ignore := if disabled.isEmpty then settings.ignore else some (settings.ignore.getD [] ++ disabled)
    quotes := some {
      style := arguments.quotes.style <|> quotes.style
      avoidEscape := arguments.quotes.avoidEscape <|> quotes.avoidEscape
      templates := arguments.quotes.templates <|> quotes.templates
      ignoreStrings := arguments.quotes.ignoreStrings <|> quotes.ignoreStrings }
    semicolons := some {
      mode := arguments.semicolons.mode <|> semicolons.mode
      omitLastInBlock := arguments.semicolons.omitLastInBlock <|> semicolons.omitLastInBlock
      omitLastInClassBody :=
        arguments.semicolons.omitLastInClassBody <|> semicolons.omitLastInClassBody
      beforeContinuation :=
        arguments.semicolons.beforeContinuation <|> semicolons.beforeContinuation } }

end Arguments

end ScriptStyle
