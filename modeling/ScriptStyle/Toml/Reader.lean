import ScriptStyle.Text.Bytes
import ScriptStyle.Toml.Scalar

/-!
Reading documents of configuration tables.
-/

namespace ScriptStyle.Toml

/-- A reader takes a value from the front of a text, or refuses the text. -/
abbrev Reader (α : Type) := List Char → Option (α × List Char)

namespace Reader

/-- Whether a character is a blank within a line. -/
def isBlank (c : Char) : Bool :=
  c == ' ' || c == '\t'

/-- A text without the blanks at its front. -/
def skipBlank (text : List Char) : List Char :=
  text.dropWhile isBlank

/-- Whether a character may stand in comments and strings. -/
def isAllowed (c : Char) : Bool :=
  c == '\t' || (decide (0x20 ≤ c.toNat) && c != '\x7f')

/-- The text after a line break at its front. -/
def afterBreak? : List Char → Option (List Char)
  | '\n' :: rest => some rest
  | '\r' :: '\n' :: rest => some rest
  | _ => none

/-- The text after a comment at its front, which may be absent. -/
def skipComment : List Char → List Char
  | '#' :: rest => rest.dropWhile isAllowed
  | text => text

/-- The text after blanks, comments and line breaks. At most `fuel` lines are skipped. -/
def skipLines : Nat → List Char → List Char
  | 0, text => text
  | fuel + 1, text =>
      let rest := skipComment (skipBlank text)
      match afterBreak? rest with
      | some rest => skipLines fuel rest
      | none => rest

/-- The text after all blanks, comments and line breaks at its front. -/
def skipAll (text : List Char) : List Char :=
  skipLines (text.length + 1) text

/-- A character given by hexadecimal digits. -/
def escapedUnit (count : Nat) : Reader Char := fun text => do
  let digits := text.take count
  let values ← digits.mapM Json.Reader.hexValue?
  let n := values.foldl (fun n value => n * 16 + value) 0
  if digits.length == count && n.isValidChar then
    some (Char.ofNat n, text.drop count)
  else
    none

/-- The character of an escape, after its backslash. -/
def escape : Reader Char
  | 'x' :: rest => escapedUnit 2 rest
  | 'u' :: rest => escapedUnit 4 rest
  | 'U' :: rest => escapedUnit 8 rest
  | 'b' :: rest => some ('\x08', rest)
  | 't' :: rest => some ('\t', rest)
  | 'n' :: rest => some ('\n', rest)
  | 'f' :: rest => some ('\x0c', rest)
  | 'r' :: rest => some ('\r', rest)
  | 'e' :: rest => some ('\x1b', rest)
  | '\x22' :: rest => some ('\x22', rest)
  | '\\' :: rest => some ('\\', rest)
  | _ => none

/-- The text after the blanks and line breaks that a backslash at the end of a line joins. -/
def afterJoin? (text : List Char) : Option (List Char) :=
  (afterBreak? (skipBlank text)).map fun rest =>
    rest.dropWhile fun c => isBlank c || c == '\n' || c == '\r'

/-- The characters of a string on one line, up to its closing quote. -/
def lineBody (quote : Char) : Nat → Reader (List Char)
  | 0, _ => none
  | _ + 1, [] => none
  | fuel + 1, c :: rest =>
      if c == quote then
        some ([], rest)
      else if c == '\\' && quote == '\x22' then do
        let (c, rest) ← escape rest
        let (chars, rest) ← lineBody quote fuel rest
        some (c :: chars, rest)
      else if isAllowed c then do
        let (chars, rest) ← lineBody quote fuel rest
        some (c :: chars, rest)
      else
        none

/-- The characters of a string over several lines, up to the last three of three to five closing
quotes. -/
def linesBody (quote : Char) : Nat → Reader (List Char)
  | 0, _ => none
  | _ + 1, [] => none
  | fuel + 1, c :: rest =>
      if [quote, quote, quote].isPrefixOf (c :: rest) then
        let count := min 5 (Text.lengthWhile (· == quote) (c :: rest))
        some (List.replicate (count - 3) quote, (c :: rest).drop count)
      else if c == '\\' && quote == '\x22' then
        match afterJoin? rest with
        | some rest => linesBody quote fuel rest
        | none => do
            let (c, rest) ← escape rest
            let (chars, rest) ← linesBody quote fuel rest
            some (c :: chars, rest)
      else
        match afterBreak? (c :: rest) with
        | some rest => do
            let (chars, rest) ← linesBody quote fuel rest
            some ('\n' :: chars, rest)
        | none =>
            if isAllowed c then do
              let (chars, rest) ← linesBody quote fuel rest
              some (c :: chars, rest)
            else
              none

/-- A string on one line, after its opening quote. -/
def lineString (quote : Char) : Reader String := fun text => do
  let (chars, rest) ← lineBody quote (text.length + 1) text
  some (String.ofList chars, rest)

/-- A string over several lines, after its opening quotes. A line break after them is skipped. -/
def linesString (quote : Char) : Reader String := fun text => do
  let text := (afterBreak? text).getD text
  let (chars, rest) ← linesBody quote (text.length + 1) text
  some (String.ofList chars, rest)

/-- A string with the given quotes, after the first of them. -/
def quotedString (quote : Char) : Reader String := fun text =>
  if [quote, quote].isPrefixOf text then linesString quote (text.drop 2) else lineString quote text

/-- Whether a character may stand in a key without quotes. -/
def isKeyChar (c : Char) : Bool :=
  c.isAlphanum || c == '_' || c == '-'

/-- One part of a key. -/
def keyPart : Reader String
  | '\x22' :: rest => lineString '\x22' rest
  | '\'' :: rest => lineString '\'' rest
  | text =>
      match text.takeWhile isKeyChar with
      | [] => none
      | chars => some (String.ofList chars, text.dropWhile isKeyChar)

/-- A key: parts between dots. At most `fuel` parts are read. -/
def key : Nat → Reader (List String)
  | 0, _ => none
  | fuel + 1, text => do
      let (part, rest) ← keyPart (skipBlank text)
      match skipBlank rest with
      | '.' :: rest => do
          let (parts, rest) ← key fuel rest
          some (part :: parts, rest)
      | rest => some ([part], rest)

/-- Whether a character may stand in a value without quotes. -/
def isScalarChar (c : Char) : Bool :=
  isKeyChar c || c == '+' || c == '.' || c == ':'

/-- A value without quotes. A date may be parted from its time by a blank. -/
def scalar : Reader Value := fun text => do
  let front := text.takeWhile isScalarChar
  let rest := text.dropWhile isScalarChar
  let isDate := afterDate? front == some []
  match rest with
  | ' ' :: next :: others =>
      if isDate && next.isDigit then
        let time := (next :: others).takeWhile isScalarChar
        let value ← scalar? (front ++ ' ' :: time)
        some (.scalar value, (next :: others).dropWhile isScalarChar)
      else
        let value ← scalar? front
        some (.scalar value, rest)
  | _ => do
      let value ← scalar? front
      some (.scalar value, rest)

/-- The items of an array up to its closing bracket, with a reader for each. -/
def items (item : Reader Value) : Nat → Reader (List Value)
  | 0, _ => none
  | fuel + 1, text =>
      match skipAll text with
      | ']' :: rest => some ([], rest)
      | text => do
          let (value, rest) ← item text
          match skipAll rest with
          | ']' :: rest => some ([value], rest)
          | ',' :: rest => do
              let (values, rest) ← items item fuel rest
              some (value :: values, rest)
          | _ => none

/-- A key and its value. -/
def keyValue (item : Reader Value) : Reader (List String × Value) := fun text => do
  let (path, rest) ← key (text.length + 1) text
  match rest with
  | '=' :: rest => do
      let (value, rest) ← item (skipBlank rest)
      some ((path, value), rest)
  | _ => none

/-- The entries of a table up to its closing brace, with a reader for each value. -/
def entries (item : Reader Value) : Nat → Entries → Reader Entries
  | 0, _, _ => none
  | fuel + 1, found, text =>
      match skipAll text with
      | '}' :: rest => some (found, rest)
      | text => do
          let ((path, value), rest) ← keyValue item text
          let found ← Entries.addDotted value path found
          match skipAll rest with
          | '}' :: rest => some (found, rest)
          | ',' :: rest => entries item fuel found rest
          | _ => none

/-- A value, with at most `depth` arrays and tables around each other. -/
def value : Nat → Reader Value
  | depth, text =>
      match text with
      | '\x22' :: rest => (quotedString '\x22' rest).map fun found =>
          (.scalar (.string found.1), found.2)
      | '\'' :: rest => (quotedString '\'' rest).map fun found =>
          (.scalar (.string found.1), found.2)
      | '[' :: rest =>
          match depth with
          | 0 => none
          | depth + 1 => (items (value depth) (rest.length + 1) rest).map fun found =>
              (.array found.1, found.2)
      | '{' :: rest =>
          match depth with
          | 0 => none
          | depth + 1 => (entries (value depth) (rest.length + 1) [] rest).map fun found =>
              (.table .inline found.1, found.2)
      | _ => scalar text

/-- The most arrays and tables around each other that a value may hold. -/
def maxDepth : Nat := 80

/-- A header after its opening brackets. -/
def header (isList : Bool) : Reader Statement := fun text => do
  let (path, rest) ← key (text.length + 1) text
  match isList, rest with
  | true, ']' :: ']' :: rest => some (.header path true, rest)
  | false, ']' :: rest => some (.header path false, rest)
  | _, _ => none

/-- What a line says. -/
def statement : Reader Statement
  | '[' :: '[' :: rest => header true rest
  | '[' :: rest => header false rest
  | text => (keyValue (value maxDepth) text).map fun found =>
      (.keyValue found.1.1 found.1.2, found.2)

/-- The statements of a document, each on lines of its own. -/
def statements : Nat → List Char → Option (List Statement)
  | 0, _ => none
  | fuel + 1, text =>
      match skipAll text with
      | [] => some []
      | text => do
          let (found, rest) ← statement text
          match skipComment (skipBlank rest) with
          | [] => some [found]
          | rest => do
              let rest ← afterBreak? rest
              let others ← statements fuel rest
              some (found :: others)

end Reader

/-- The table that a document describes. A byte order mark at its front is skipped. -/
def parse? (text : String) : Option Json := do
  let chars :=
    match text.toList with
    | '\ufeff' :: rest => rest
    | chars => chars
  let statements ← Reader.statements (chars.length + 1) chars
  let entries ← build [] [] statements
  some (.object (entriesToJson entries))

end ScriptStyle.Toml
