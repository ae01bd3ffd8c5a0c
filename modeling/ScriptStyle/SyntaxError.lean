import ScriptStyle.Text.Printable

/-!
The ways in which a text fails to be a script.
-/

namespace ScriptStyle

/-- Why a text is not a script, and the byte offset at which that shows. -/
inductive SyntaxError where
  /-- A quote that nothing closes on its line. -/
  | unterminatedString (offset : Nat)
  /-- A template literal that nothing closes. -/
  | unterminatedTemplate (offset : Nat)
  /-- A block comment that nothing closes. -/
  | unterminatedComment (offset : Nat)
  /-- A regular expression that nothing closes on its line. -/
  | unterminatedRegex (offset : Nat)
  /-- A character that begins no token. -/
  | unexpectedCharacter (found : Char) (offset : Nat)
  /-- A token that the grammar does not allow at its place. -/
  | unexpectedToken (found : String) (offset : Nat) (expected : String)
  /-- A text that stops inside a construct; the offset is its length. -/
  | unexpectedEnd (offset : Nat) (expected : String)
  /-- A construct inside too many others. -/
  | nestingTooDeep (offset : Nat)
  /-- A text whose offsets need more than 32 bits. -/
  | sourceTooLarge
deriving DecidableEq, Repr, Inhabited

namespace SyntaxError

/-- The byte offset at which the error shows, if it has one. -/
def offset? : SyntaxError → Option Nat
  | unterminatedString offset | unterminatedTemplate offset | unterminatedComment offset
  | unterminatedRegex offset | unexpectedCharacter _ offset | unexpectedToken _ offset _
  | unexpectedEnd offset _ | nestingTooDeep offset => some offset
  | sourceTooLarge => none

/-- The wording of an error. -/
def message : SyntaxError → String
  | unterminatedString offset => "unterminated string literal at byte " ++ toString offset
  | unterminatedTemplate offset => "unterminated template literal at byte " ++ toString offset
  | unterminatedComment offset => "unterminated comment at byte " ++ toString offset
  | unterminatedRegex offset => "unterminated regular expression at byte " ++ toString offset
  | unexpectedCharacter found offset =>
      "unexpected character " ++ Text.quotedChar found ++ " at byte " ++ toString offset
  | unexpectedToken found offset expected =>
      "unexpected token `" ++ found ++ "` at byte " ++ toString offset ++ ", expected " ++ expected
  | unexpectedEnd _ expected => "unexpected end of input, expected " ++ expected
  | nestingTooDeep offset => "nesting too deep at byte " ++ toString offset
  | sourceTooLarge => "source text is larger than 4 GiB"

end SyntaxError

end ScriptStyle
