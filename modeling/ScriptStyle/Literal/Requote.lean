import ScriptStyle.Literal.Escape
import ScriptStyle.Style
import ScriptStyle.Text.Bytes

/-!
Writing a literal with other quotes, so that it keeps its value.
-/

namespace ScriptStyle.Literal

/-- What other quotes make of a literal. -/
inductive Requoted where
  /-- The literal is acceptable as it is. -/
  | kept
  /-- No literal with the wanted quotes has the same value. -/
  | impossible
  /-- The literal with the wanted quotes. -/
  | rewritten (text : String)
deriving DecidableEq, Repr

/-- The text between the quotes of a literal, moved from one kind of quotes to another.

The old quotes need no escapes any more, and the new ones need them. A dollar sign before a brace
is escaped where it would begin a substitution. A line break in a template becomes an escape.
Every other escape is copied, together with both halves of a CR LF pair. -/
def requoteBody (current target : QuoteStyle) : List Char → List Char
  | [] => []
  | ['\\'] => ['\\']
  | '\\' :: '\r' :: '\n' :: rest => '\\' :: '\r' :: '\n' :: requoteBody current target rest
  | '\\' :: c :: rest =>
      if c == current.quote || (current == .backtick && c == '$' && rest.head? == some '{') then
        c :: requoteBody current target rest
      else
        '\\' :: c :: requoteBody current target rest
  | '\r' :: '\n' :: rest =>
      if current == .backtick then
        '\\' :: 'n' :: requoteBody current target rest
      else
        '\r' :: '\n' :: requoteBody current target rest
  | c :: rest =>
      if c == target.quote || (target == .backtick && c == '$' && rest.head? == some '{') then
        '\\' :: c :: requoteBody current target rest
      else if current == .backtick && (c == '\r' || c == '\n') then
        '\\' :: 'n' :: requoteBody current target rest
      else
        c :: requoteBody current target rest

/-- The text between the delimiters of a literal, each of which is one byte. -/
def inner (raw : List Char) : List Char :=
  Text.slice raw 1 (Text.byteLength raw - 1)

/-- What other quotes make of a literal. Where escapes are to be avoided, a literal that
holds the wanted quote and not its own is kept. -/
def requote (raw : List Char) (current target : QuoteStyle) (avoidEscape : Bool) : Requoted :=
  let body := inner raw
  if current == target then
    .kept
  else if avoidEscape && body.contains target.quote && !body.contains current.quote then
    .kept
  else if target == .backtick && hasOctalEscape body then
    .impossible
  else
    .rewritten (String.ofList (target.quote :: (requoteBody current target body ++ [target.quote])))

end ScriptStyle.Literal
