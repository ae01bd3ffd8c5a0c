import ScriptStyle.Json
import ScriptStyle.Text.Printable

/-!
Writing JSON text, on one line or indented.
-/

namespace ScriptStyle.Json

/-- The four digits of a code unit below 256. -/
def unitDigits (n : Nat) : String :=
  let digits := Text.hexDigits n
  String.ofList (List.replicate (4 - digits.length) '0') ++ digits

/-- A character inside a string. Only quotes, backslashes and controls are escaped. -/
def escapedChar (c : Char) : String :=
  match c with
  | '\x22' => "\\\x22"
  | '\\' => "\\\\"
  | '\x08' => "\\b"
  | '\x0c' => "\\f"
  | '\n' => "\\n"
  | '\r' => "\\r"
  | '\t' => "\\t"
  | c => if c.toNat < 32 then "\\u" ++ unitDigits c.toNat else c.toString

/-- A string with its quotes. -/
def quoted (text : String) : String :=
  "\x22" ++ String.join (text.toList.map escapedChar) ++ "\x22"

mutual

/-- A value on one line, without blanks. -/
def compact : Json → String
  | .null => "null"
  | .bool value => if value then "true" else "false"
  | .number literal => literal
  | .string value => quoted value
  | .array items => "[" ++ String.intercalate "," (compactItems items) ++ "]"
  | .object members => "\x7b" ++ String.intercalate "," (compactMembers members) ++ "\x7d"

/-- Each item of an array on one line. -/
def compactItems : List Json → List String
  | [] => []
  | item :: others => compact item :: compactItems others

/-- Each member of an object on one line. -/
def compactMembers : List (String × Json) → List String
  | [] => []
  | (name, value) :: others => (quoted name ++ ":" ++ compact value) :: compactMembers others

end

/-- A line break and the indentation of the given depth. -/
def lineBreak (depth : Nat) : String :=
  "\n" ++ String.ofList (List.replicate (2 * depth) ' ')

/-- Parts between brackets, each on a line of its own; nothing between them if there are none. -/
def bracketed (opening closing : String) (depth : Nat) (parts : List String) : String :=
  if parts.isEmpty then
    opening ++ closing
  else
    opening ++ lineBreak (depth + 1)
      ++ String.intercalate ("," ++ lineBreak (depth + 1)) parts ++ lineBreak depth ++ closing

mutual

/-- A value over several lines, indented by two blanks for each container around it. -/
def indented (depth : Nat) : Json → String
  | .null => "null"
  | .bool value => if value then "true" else "false"
  | .number literal => literal
  | .string value => quoted value
  | .array items => bracketed "[" "]" depth (indentedItems (depth + 1) items)
  | .object members => bracketed "\x7b" "\x7d" depth (indentedMembers (depth + 1) members)

/-- Each item of an array at a depth. -/
def indentedItems (depth : Nat) : List Json → List String
  | [] => []
  | item :: others => indented depth item :: indentedItems depth others

/-- Each member of an object at a depth. -/
def indentedMembers (depth : Nat) : List (String × Json) → List String
  | [] => []
  | (name, value) :: others =>
      (quoted name ++ ": " ++ indented depth value) :: indentedMembers depth others

end

/-- A value over several lines. -/
def pretty (value : Json) : String :=
  indented 0 value

end ScriptStyle.Json
