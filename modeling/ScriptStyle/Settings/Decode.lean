import ScriptStyle.Json
import ScriptStyle.Settings

/-!
Settings from a tree of values. A group of settings is written as named values, of which some
may be left out, or as a list of all its values in order. Names have two spellings, and a
setting must not be given in both.
-/

namespace ScriptStyle.Settings

/-- What the formats of settings files differ in. -/
structure Format where
  /-- Whether a list that stands for a group may hold more values than the group. -/
  allowsSurplus : Bool
  /-- Whether a value may be paired with a word that stands for itself. -/
  isUnit : Json → Bool

namespace Format

/-- The format in which null stands for nothing. -/
def json : Format where
  allowsSurplus := false
  isUnit
    | .null => true
    | _ => false

/-- The format without null, in which an empty list or table stands for nothing. -/
def toml : Format where
  allowsSurplus := true
  isUnit
    | .array items => items.isEmpty
    | .object members => members.isEmpty
    | _ => false

end Format

/-- The value of a setting that may be open; null leaves it open. -/
def openOr {α : Type} (decode : Json → Option α) : Json → Option (Option α)
  | .null => some none
  | value => (decode value).map some

/-- A list of strings. -/
def strings : Json → Option (List String)
  | .array items => items.mapM Json.string?
  | _ => none

/-- A word, written as a string or as the name of a value that stands for nothing. -/
def word (format : Format) : Json → Option String
  | .string text => some text
  | .object ((name, value) :: others) =>
      let last := (((name, value) :: others).getLast?.map Prod.snd).getD value
      if others.all (·.1 == name) && format.isUnit last then some name else none
  | _ => none

/-- A word that names one of some values. -/
def choice {α : Type} (format : Format) (name : α → String) (all : List α) (value : Json)
    : Option α := do
  let text ← word format value
  all.find? fun candidate => name candidate == text

/-- A policy on templates, also given as a truth value. -/
def templatePolicy : Json → Option TemplatePolicy
  | .bool true => some .always
  | .bool false => some .never
  | .string "always" => some .always
  | .string "never" => some .never
  | .string "avoidEscape" | .string "avoid-escape" => some .avoidEscape
  | _ => none

/-- The value of a setting in named values: null if neither spelling occurs. -/
def member? (value : Json) (spellings : List String) : Option Json :=
  match spellings.filterMap value.get? with
  | [] => some .null
  | [found] => some found
  | _ => none

/-- The values of a group in order, from named values or a list. -/
def group (format : Format) (names : List (List String)) (value : Json) : Option (List Json) :=
  match value with
  | .object _ => names.mapM (member? value)
  | .array items =>
      if items.length == names.length
          || (format.allowsSurplus && decide (names.length ≤ items.length)) then
        some (items.take names.length)
      else
        none
  | _ => none

/-- The settings of the rule on quotes. -/
def quoteSettings (format : Format) (value : Json) : Option QuoteSettings := do
  let names := [["style"], ["avoid_escape", "avoidEscape"],
    ["allow_template_literals", "allowTemplateLiterals"],
    ["ignore_string_literals", "ignoreStringLiterals"]]
  match ← group format names value with
  | [style, avoidEscape, templates, ignoreStrings] => do
      let style ← openOr (choice format QuoteStyle.name QuoteStyle.all) style
      let avoidEscape ← openOr Json.bool? avoidEscape
      let templates ← openOr templatePolicy templates
      let ignoreStrings ← openOr Json.bool? ignoreStrings
      some { style, avoidEscape, templates, ignoreStrings }
  | _ => none

/-- The settings of the rule on semicolons. -/
def semicolonSettings (format : Format) (value : Json) : Option SemicolonSettings := do
  let names := [["mode"], ["omit_last_in_one_line_block", "omitLastInOneLineBlock"],
    ["omit_last_in_one_line_class_body", "omitLastInOneLineClassBody"],
    ["before_statement_continuation_chars", "beforeStatementContinuationChars"]]
  match ← group format names value with
  | [mode, omitLastInBlock, omitLastInClassBody, beforeContinuation] => do
      let mode ← openOr (choice format SemicolonMode.name [.always, .never]) mode
      let omitLastInBlock ← openOr Json.bool? omitLastInBlock
      let omitLastInClassBody ← openOr Json.bool? omitLastInClassBody
      let beforeContinuation ←
        openOr (choice format ContinuationPolicy.name [.always, .any, .never]) beforeContinuation
      some { mode, omitLastInBlock, omitLastInClassBody, beforeContinuation }
  | _ => none

/-- All settings. -/
def decode (format : Format) (value : Json) : Option Settings := do
  let names := [["exclude_folders", "excludeFolders"], ["ignore"], ["quotes"], ["semi"]]
  match ← group format names value with
  | [excludeFolders, ignore, quotes, semicolons] => do
      let excludeFolders ← openOr strings excludeFolders
      let ignore ← openOr strings ignore
      let quotes ← openOr (quoteSettings format) quotes
      let semicolons ← openOr (semicolonSettings format) semicolons
      some { excludeFolders, ignore, quotes, semicolons }
  | _ => none

end ScriptStyle.Settings
