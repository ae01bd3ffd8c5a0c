/-!
The options of a style: which quotes literals use, and where statements end with semicolons.
-/

namespace ScriptStyle

/-- The delimiter of string literals, or of template literals in place of strings. -/
inductive QuoteStyle where
  | single
  | double
  | backtick
deriving DecidableEq, Repr, Inhabited

namespace QuoteStyle

/-- The styles, in the order in which they are listed. -/
def all : List QuoteStyle := [single, double, backtick]

/-- The word for a style in settings. -/
def name : QuoteStyle → String
  | single => "single"
  | double => "double"
  | backtick => "backtick"

/-- The delimiter itself. -/
def quote : QuoteStyle → Char
  | single => '\''
  | double => '\x22'
  | backtick => '\x60'

/-- The word for a style in messages. -/
def description : QuoteStyle → String
  | single => "singlequote"
  | double => "doublequote"
  | backtick => "backtick"

/-- The style of a literal, by its first character. -/
def ofLiteral? (raw : List Char) : Option QuoteStyle :=
  raw.head?.bind fun c => all.find? (·.quote == c)

end QuoteStyle

/-- When a template literal without substitutions may stay a template. -/
inductive TemplatePolicy where
  /-- Always. -/
  | always
  /-- Never: templates are treated like strings. -/
  | never
  /-- When it could not become a string without escapes. -/
  | avoidEscape
deriving DecidableEq, Repr, Inhabited

namespace TemplatePolicy

/-- The word for a policy in reports. -/
def name : TemplatePolicy → String
  | always => "always"
  | never => "never"
  | avoidEscape => "avoidEscape"

end TemplatePolicy

/-- Whether statements end with semicolons. -/
inductive SemicolonMode where
  /-- Every statement does. -/
  | always
  /-- None does unless it is needed. -/
  | never
deriving DecidableEq, Repr, Inhabited

namespace SemicolonMode

/-- The word for a mode in settings. -/
def name : SemicolonMode → String
  | always => "always"
  | never => "never"

end SemicolonMode

/-- Where semicolons are not used, what happens before a line that could continue
the statement before it. -/
inductive ContinuationPolicy where
  /-- A semicolon is required. -/
  | always
  /-- A semicolon is left alone. -/
  | any
  /-- A semicolon is removed unless the statement could go on. -/
  | never
deriving DecidableEq, Repr, Inhabited

namespace ContinuationPolicy

/-- The word for a policy in settings. -/
def name : ContinuationPolicy → String
  | always => "always"
  | any => "any"
  | never => "never"

end ContinuationPolicy

/-- The options of the rule on quotes. -/
structure QuoteOptions where
  style : QuoteStyle := .double
  /-- A literal that would need escapes in the wanted style is kept. -/
  avoidEscape : Bool := false
  templates : TemplatePolicy := .never
  /-- String literals are not looked at, unless backticks are wanted. -/
  ignoreStrings : Bool := false
deriving DecidableEq, Repr, Inhabited

/-- The options of the rule on semicolons. -/
structure SemicolonOptions where
  mode : SemicolonMode := .always
  /-- The last statement of a block on one line has no semicolon. -/
  omitLastInBlock : Bool := false
  /-- The last field of a class body on one line has no semicolon. -/
  omitLastInClassBody : Bool := false
  beforeContinuation : ContinuationPolicy := .any
deriving DecidableEq, Repr, Inhabited

/-- A style. A rule without options is not applied. -/
structure Style where
  quotes : Option QuoteOptions := some {}
  semicolons : Option SemicolonOptions := some {}
deriving DecidableEq, Repr, Inhabited

end ScriptStyle
