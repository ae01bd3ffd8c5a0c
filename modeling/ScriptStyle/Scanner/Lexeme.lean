import ScriptStyle.Text.Blank
import ScriptStyle.Text.Bytes
import ScriptStyle.Text.IdentifierChar

/-!
How far the lexeme at the front of a text reaches. Every lexeme is measured in characters,
so that a text is always the lexeme taken from it followed by what the lexeme leaves.
-/

namespace ScriptStyle.Lexeme

open ScriptStyle.Text

/-- A measured lexeme, and whether its closing delimiter was found. -/
structure Reach where
  length : Nat
  closed : Bool
deriving DecidableEq, Repr

/-- A reach after some more characters in front. -/
def Reach.after (count : Nat) (reach : Reach) : Reach :=
  { reach with length := reach.length + count }

/-- A line comment reaches to the end of its line. -/
def lineLength (text : List Char) : Nat :=
  lengthWhile (fun c => !isLineTerminator c) text

/-- The rest of a block comment, up to and including its closing delimiter. -/
def commentReach : List Char → Reach
  | [] => ⟨0, false⟩
  | '*' :: '/' :: _ => ⟨2, true⟩
  | _ :: rest => (commentReach rest).after 1

/-- The rest of a string literal, up to and including its closing quote.
A backslash takes the next character with it, and both halves of a CR LF pair.
A line break that is not escaped is read and leaves the string open. -/
def stringReach (quote : Char) : List Char → Reach
  | [] => ⟨0, false⟩
  | '\\' :: '\r' :: '\n' :: rest => (stringReach quote rest).after 3
  | '\\' :: _ :: rest => (stringReach quote rest).after 2
  | c :: rest =>
      if c == quote then
        ⟨1, true⟩
      else if c == '\n' || c == '\r' then
        ⟨1, false⟩
      else
        (stringReach quote rest).after 1

/-- How the text of a template stops. -/
inductive TemplateStop where
  /-- A backtick ends the literal. -/
  | backtick
  /-- A dollar sign and a brace open a substitution. -/
  | substitution
  /-- The source ends first. -/
  | missing
deriving DecidableEq, Repr

/-- A measured piece of a template, and how it stops. -/
structure TemplateReach where
  length : Nat
  stop : TemplateStop
deriving DecidableEq, Repr

/-- A template piece after some more characters in front. -/
def TemplateReach.after (count : Nat) (reach : TemplateReach) : TemplateReach :=
  { reach with length := reach.length + count }

/-- The text of a template after the backtick or brace that begins it. -/
def templateReach : List Char → TemplateReach
  | [] => ⟨0, .missing⟩
  | '\x60' :: _ => ⟨1, .backtick⟩
  | '$' :: '{' :: _ => ⟨2, .substitution⟩
  | '\\' :: _ :: rest => (templateReach rest).after 2
  | _ :: rest => (templateReach rest).after 1

/-- The rest of a regular expression after its first slash, flags included.
A slash inside a class does not close it, and no line break may occur. -/
def regexReach : Bool → List Char → Reach
  | _, [] => ⟨0, false⟩
  | inClass, '\\' :: c :: rest =>
      if isLineTerminator c then ⟨2, false⟩ else (regexReach inClass rest).after 2
  | _, '[' :: rest => (regexReach true rest).after 1
  | _, ']' :: rest => (regexReach false rest).after 1
  | inClass, c :: rest =>
      if c == '/' && !inClass then
        ⟨1 + lengthWhile isIdentifierContinue rest, true⟩
      else if isLineTerminator c then
        ⟨1, false⟩
      else
        (regexReach inClass rest).after 1

/-- An identifier name. A braced escape runs to its closing brace, whatever it holds;
the flag tells that such an escape is open. -/
def nameLength : Bool → List Char → Nat
  | _, [] => 0
  | true, c :: rest => nameLength (c != '}') rest + 1
  | false, '\\' :: 'u' :: '{' :: rest => nameLength true rest + 3
  | false, c :: rest =>
      if c == '\\' || isIdentifierContinue c then nameLength false rest + 1 else 0

/-- The digits of a decimal literal and the separators between them. -/
def isDecimalPart (c : Char) : Bool :=
  c.isDigit || c == '_'

/-- The fraction of a decimal literal, from its point. -/
def fractionLength : List Char → Nat
  | '.' :: rest => 1 + lengthWhile isDecimalPart rest
  | _ => 0

/-- The digits of an exponent with their sign. -/
def signedLength : List Char → Nat
  | '+' :: rest | '-' :: rest => 1 + lengthWhile isDecimalPart rest
  | text => lengthWhile isDecimalPart text

/-- The exponent of a decimal literal, from its letter. -/
def exponentLength : List Char → Nat
  | 'e' :: rest | 'E' :: rest => 1 + signedLength rest
  | _ => 0

/-- The letter that makes a literal an exact integer. -/
def integerSuffixLength : List Char → Nat
  | 'n' :: _ => 1
  | _ => 0

/-- A decimal literal: digits, fraction, exponent, suffix, each of which may be absent. -/
def decimalLength (text : List Char) : Nat :=
  let whole := lengthWhile isDecimalPart text
  let fraction := whole + fractionLength (text.drop whole)
  let exponent := fraction + exponentLength (text.drop fraction)
  exponent + integerSuffixLength (text.drop exponent)

/-- Whether a letter after a zero names the base of the digits that follow. -/
def isRadixLetter (c : Char) : Bool :=
  c == 'x' || c == 'X' || c == 'o' || c == 'O' || c == 'b' || c == 'B'

/-- A numeric literal of any base. -/
def numberLength : List Char → Nat
  | '0' :: c :: rest =>
      if isRadixLetter c then
        2 + lengthWhile (fun d => d.isAlphanum || d == '_') rest
      else
        decimalLength ('0' :: c :: rest)
  | text => decimalLength text

/-- The punctuators other than the two that begin with a slash.
A punctuator stands after every longer one that begins with it. -/
def punctuators : List String := [
  ">>>=", "...", "===", "!==", "**=", "<<=", ">>=", ">>>", "&&=", "||=", "??=", "=>", "==", "!=",
  "<=", ">=", "&&", "||", "??", "?.", "++", "--", "+=", "-=", "*=", "%=", "&=", "|=", "^=", "<<",
  ">>", "**", "\x7b", "\x7d", "(", ")", "[", "]", ";", ",", "<", ">", "+", "-", "*", "%", "&", "|", "^",
  "!", "~", "?", ":", "=", ".", "@"
]

/-- A punctuator, the longest that fits. A question mark before a decimal fraction is an
operator of its own and no part of an optional access. -/
def punctuatorLength? : List Char → Option Nat
  | '?' :: '.' :: c :: rest =>
      if c.isDigit then
        some 1
      else
        (punctuators.find? (startsWith · ('?' :: '.' :: c :: rest))).map String.length
  | text => (punctuators.find? (startsWith · text)).map String.length

end ScriptStyle.Lexeme
