import ScriptStyle.Diagnostic

/-!
Settings as they are written in a file: parts of a style, each of which may be left open.
-/

namespace ScriptStyle

/-- The settings of the rule on quotes. -/
structure QuoteSettings where
  style : Option QuoteStyle := none
  avoidEscape : Option Bool := none
  templates : Option TemplatePolicy := none
  ignoreStrings : Option Bool := none
deriving DecidableEq, Repr, Inhabited

/-- The settings of the rule on semicolons. -/
structure SemicolonSettings where
  mode : Option SemicolonMode := none
  omitLastInBlock : Option Bool := none
  omitLastInClassBody : Option Bool := none
  beforeContinuation : Option ContinuationPolicy := none
deriving DecidableEq, Repr, Inhabited

/-- All settings. -/
structure Settings where
  /-- The names of files and folders that are not looked at, in place of the usual ones. -/
  excludeFolders : Option (List String) := none
  /-- The names of rules that are not applied. -/
  ignore : Option (List String) := none
  quotes : Option QuoteSettings := none
  semicolons : Option SemicolonSettings := none
deriving DecidableEq, Repr, Inhabited

namespace QuoteSettings

/-- The options of the rule, where open settings have their usual values. -/
def options (settings : QuoteSettings) : QuoteOptions :=
  let usual : QuoteOptions := {}
  { style := settings.style.getD usual.style
    avoidEscape := settings.avoidEscape.getD usual.avoidEscape
    templates := settings.templates.getD usual.templates
    ignoreStrings := settings.ignoreStrings.getD usual.ignoreStrings }

end QuoteSettings

namespace SemicolonSettings

/-- The options of the rule, where open settings have their usual values. -/
def options (settings : SemicolonSettings) : SemicolonOptions :=
  let usual : SemicolonOptions := {}
  { mode := settings.mode.getD usual.mode
    omitLastInBlock := settings.omitLastInBlock.getD usual.omitLastInBlock
    omitLastInClassBody := settings.omitLastInClassBody.getD usual.omitLastInClassBody
    beforeContinuation := settings.beforeContinuation.getD usual.beforeContinuation }

end SemicolonSettings

namespace Settings

/-- Whether settings name a rule as not applied. -/
def ignores (settings : Settings) (rule : RuleId) : Bool :=
  (settings.ignore.getD []).contains rule.name

/-- The style that settings describe. -/
def style (settings : Settings) : Style where
  quotes :=
    if settings.ignores .quotes then none else some (settings.quotes.getD {}).options
  semicolons :=
    if settings.ignores .semicolons then none else some (settings.semicolons.getD {}).options

end Settings

end ScriptStyle
