import ScriptStyle.Text.Blank

/-!
Escapes inside literals. A backslash always takes the character after it.
-/

namespace ScriptStyle.Literal

/-- Whether a text holds an escape that a template literal must not contain: a backslash before
a digit from one to nine, or before a zero that another digit follows. -/
def hasOctalEscape : List Char → Bool
  | [] => false
  | '\\' :: '0' :: rest => (rest.head?.any Char.isDigit) || hasOctalEscape rest
  | '\\' :: c :: rest => c.isDigit || hasOctalEscape rest
  | _ :: rest => hasOctalEscape rest

/-- Whether a line terminator stands after an even number of backslashes.
The flag tells that an odd number stands directly before the text. -/
def hasLineBreak : Bool → List Char → Bool
  | _, [] => false
  | odd, c :: rest =>
      if c == '\\' then
        hasLineBreak (!odd) rest
      else
        (Text.isLineTerminator c && !odd) || hasLineBreak false rest

/-- A text with each pair of CR and LF made one LF. -/
def joinLineBreaks : List Char → List Char
  | [] => []
  | '\r' :: '\n' :: rest => '\n' :: joinLineBreaks rest
  | c :: rest => c :: joinLineBreaks rest

/-- Whether the text of a template goes over several lines other than by escaped breaks. -/
def spansLines (text : List Char) : Bool :=
  hasLineBreak false (joinLineBreaks text)

end ScriptStyle.Literal
