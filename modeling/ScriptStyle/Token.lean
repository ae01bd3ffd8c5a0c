import ScriptStyle.Span

/-!
Tokens of a script. Comments are tokens too, so that every character of a source
is either part of a token or blank.
-/

namespace ScriptStyle

/-- The lexical class of a token.
Keywords are identifiers here: whether a word is a keyword depends on where it stands. -/
inductive TokenKind where
  /-- An identifier name, reserved words included. -/
  | identifier
  /-- A name that begins with a number sign. -/
  | privateName
  /-- A numeric literal. -/
  | number
  /-- A string literal in single or double quotes. -/
  | string
  /-- A template literal without substitutions. -/
  | template
  /-- The text of a template up to its first substitution. -/
  | templateHead
  /-- The text of a template between two substitutions. -/
  | templateMiddle
  /-- The text of a template after its last substitution. -/
  | templateTail
  /-- A regular expression literal with its flags. -/
  | regex
  /-- An operator or delimiter. -/
  | punctuator
  /-- A comment that ends with its line; also a first line that names an interpreter. -/
  | lineComment
  /-- A comment between delimiters. -/
  | blockComment
deriving DecidableEq, Repr, Inhabited

/-- Comments carry no meaning; all other tokens are significant. -/
def TokenKind.isComment : TokenKind → Bool
  | .lineComment | .blockComment => true
  | _ => false

/-- A classified piece of the source. -/
structure Token where
  kind : TokenKind
  span : Span
  /-- The characters of the source in `span`. -/
  text : String
  /-- A line terminator stands between this token and the significant token before it. -/
  newlineBefore : Bool
deriving DecidableEq, Repr, Inhabited

namespace Token

/-- Whether a token takes part in the grammar. -/
def isSignificant (token : Token) : Bool :=
  !token.kind.isComment

/-- Whether a token is the given punctuator. -/
def isPunctuator (token : Token) (text : String) : Bool :=
  token.kind == .punctuator && token.text == text

/-- Whether a token is one of the given punctuators. -/
def isPunctuatorIn (token : Token) (texts : List String) : Bool :=
  token.kind == .punctuator && texts.contains token.text

/-- Whether a token is the given identifier name. -/
def isWord (token : Token) (text : String) : Bool :=
  token.kind == .identifier && token.text == text

/-- Whether a token is the given keyword or punctuator. -/
def isTerminal (token : Token) (text : String) : Bool :=
  (token.kind == .punctuator || token.kind == .identifier) && token.text == text

/-- Whether a token is a regular expression or a division operator,
the tokens whose reading depends on the grammar. -/
def startsWithSlash (token : Token) : Bool :=
  match token.kind with
  | .regex => true
  | .punctuator => token.text == "/" || token.text == "/="
  | _ => false

end Token

end ScriptStyle
