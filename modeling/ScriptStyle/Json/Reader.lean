import ScriptStyle.Json

/-!
Reading JSON text. The reader is strict: it accepts the grammar of the data format and nothing
else, refuses numbers too large for a double, lone surrogates, and values nested too deeply.
-/

namespace ScriptStyle.Json

/-- A reader takes a value from the front of a text, or refuses the text. -/
abbrev Reader (α : Type) := List Char → Option (α × List Char)

namespace Reader

/-- The characters that may stand between tokens. -/
def isBlank (c : Char) : Bool :=
  c == ' ' || c == '\n' || c == '\r' || c == '\t'

/-- A text without the blanks at its front. -/
def skipBlank (text : List Char) : List Char :=
  text.dropWhile isBlank

/-- A fixed word at the front of a text. -/
def word (letters : List Char) (value : Json) : Reader Json := fun text =>
  if letters.isPrefixOf text then some (value, text.drop letters.length) else none

/-- The value of a hexadecimal digit. -/
def hexValue? (c : Char) : Option Nat :=
  if c.isDigit then some (c.toNat - '0'.toNat)
  else if 'a' ≤ c && c ≤ 'f' then some (c.toNat - 'a'.toNat + 10)
  else if 'A' ≤ c && c ≤ 'F' then some (c.toNat - 'A'.toNat + 10)
  else none

/-- Four hexadecimal digits. -/
def hexUnit : Reader Nat
  | a :: b :: c :: d :: rest => do
      let a ← hexValue? a
      let b ← hexValue? b
      let c ← hexValue? c
      let d ← hexValue? d
      some (((a * 16 + b) * 16 + c) * 16 + d, rest)
  | _ => none

/-- An escaped code point, written as one unit or as a surrogate pair. -/
def escapedChar : Reader Char := fun text => do
  let (unit, rest) ← hexUnit text
  if unit < 0xd800 || 0xdfff < unit then
    some (Char.ofNat unit, rest)
  else if unit < 0xdc00 then
    match rest with
    | '\\' :: 'u' :: rest => do
        let (low, rest) ← hexUnit rest
        if 0xdc00 ≤ low && low ≤ 0xdfff then
          some (Char.ofNat (0x10000 + (unit - 0xd800) * 0x400 + (low - 0xdc00)), rest)
        else
          none
    | _ => none
  else
    none

/-- The character named by the letter of a short escape. -/
def shortEscape? : Char → Option Char
  | '\x22' => some '\x22'
  | '\\' => some '\\'
  | '/' => some '/'
  | 'b' => some '\x08'
  | 'f' => some '\x0c'
  | 'n' => some '\n'
  | 'r' => some '\r'
  | 't' => some '\t'
  | _ => none

/-- The characters of a string up to its closing quote. At most `fuel` are read. -/
def stringBody : Nat → Reader (List Char)
  | 0, _ => none
  | fuel + 1, text =>
      match text with
      | '\x22' :: rest => some ([], rest)
      | '\\' :: 'u' :: rest => do
          let (c, rest) ← escapedChar rest
          let (cs, rest) ← stringBody fuel rest
          some (c :: cs, rest)
      | '\\' :: letter :: rest => do
          let c ← shortEscape? letter
          let (cs, rest) ← stringBody fuel rest
          some (c :: cs, rest)
      | c :: rest =>
          if c.toNat < 32 || c == '\\' then
            none
          else do
            let (cs, rest) ← stringBody fuel rest
            some (c :: cs, rest)
      | [] => none

/-- A string after its opening quote. -/
def stringRest : Reader String := fun text => do
  let (chars, rest) ← stringBody (text.length + 1) text
  some (String.ofList chars, rest)

/-- A nonempty run of digits. -/
def digits : Reader (List Char) := fun text =>
  match text.takeWhile Char.isDigit with
  | [] => none
  | run => some (run, text.dropWhile Char.isDigit)

/-- The digits before the point: a lone zero, or a run that does not begin with one. -/
def wholePart : Reader (List Char)
  | '0' :: rest => if (rest.head?.map Char.isDigit).getD false then none else some (['0'], rest)
  | text => digits text

/-- The digits after the point, which may be absent with it. -/
def fractionPart : Reader (List Char)
  | '.' :: rest => digits rest
  | text => some ([], text)

/-- A signed exponent, zero if absent. -/
def exponentPart : Reader Int
  | 'e' :: rest | 'E' :: rest => do
      let (negative, rest) :=
        match rest with
        | '-' :: rest => (true, rest)
        | '+' :: rest => (false, rest)
        | rest => (false, rest)
      let (run, rest) ← digits rest
      let size : Int := (String.ofList run).toNat?.getD 0
      some (if negative then -size else size, rest)
  | text => some (0, text)

/-- Whether `significand * 10 ^ exponent` rounds to a finite double. -/
def isFinite (significand : Nat) (exponent : Int) : Bool :=
  let places : Int := (Nat.toDigits 10 significand).length + exponent
  if significand == 0 || places < 300 then
    true
  else if 320 < places then
    false
  else
    let limit := Nat.pow 2 1024 - Nat.pow 2 970
    if 0 ≤ exponent then
      significand * Nat.pow 10 exponent.toNat < limit
    else
      significand < limit * Nat.pow 10 (-exponent).toNat

/-- A number without its sign. -/
def magnitude : Reader Unit := fun text => do
  let (whole, rest) ← wholePart text
  let (fraction, rest) ← fractionPart rest
  let (exponent, rest) ← exponentPart rest
  let significand := (String.ofList (whole ++ fraction)).toNat?.getD 0
  if isFinite significand (exponent - fraction.length) then some ((), rest) else none

/-- A number, kept as it was written. -/
def number : Reader Json := fun text => do
  let ((), rest) ← magnitude (if text.head? == some '-' then text.drop 1 else text)
  some (.number (String.ofList (text.take (text.length - rest.length))), rest)

/-- The items of an array up to its closing bracket, with a reader for each item.
A comma has been read in front unless this is the first item. -/
def items (item : Reader Json) : Nat → Reader (List Json)
  | 0, _ => none
  | fuel + 1, text => do
      let (value, rest) ← item (skipBlank text)
      match skipBlank rest with
      | ']' :: rest => some ([value], rest)
      | ',' :: rest => do
          let (values, rest) ← items item fuel rest
          some (value :: values, rest)
      | _ => none

/-- The members of an object up to its closing brace, with a reader for each value. -/
def members (item : Reader Json) : Nat → Reader (List (String × Json))
  | 0, _ => none
  | fuel + 1, text =>
      match skipBlank text with
      | '\x22' :: rest => do
          let (name, rest) ← stringRest rest
          match skipBlank rest with
          | ':' :: rest => do
              let (value, rest) ← item (skipBlank rest)
              match skipBlank rest with
              | '}' :: rest => some ([(name, value)], rest)
              | ',' :: rest => do
                  let (others, rest) ← members item fuel rest
                  some ((name, value) :: others, rest)
              | _ => none
          | _ => none
      | _ => none

/-- A value at the front of a text, with at most `depth` containers around each other. -/
def value : Nat → Reader Json
  | depth, text =>
      match text with
      | 'n' :: _ => word "null".toList .null text
      | 't' :: _ => word "true".toList (.bool true) text
      | 'f' :: _ => word "false".toList (.bool false) text
      | '\x22' :: rest => (stringRest rest).map fun found => (.string found.1, found.2)
      | '[' :: rest =>
          match depth with
          | 0 => none
          | depth + 1 =>
              match skipBlank rest with
              | ']' :: rest => some (.array [], rest)
              | _ => (items (value depth) (rest.length + 1) rest).map
                  fun found => (.array found.1, found.2)
      | '{' :: rest =>
          match depth with
          | 0 => none
          | depth + 1 =>
              match skipBlank rest with
              | '}' :: rest => some (.object [], rest)
              | _ => (members (value depth) (rest.length + 1) rest).map
                  fun found => (.object found.1, found.2)
      | c :: _ => if c == '-' || c.isDigit then number text else none
      | [] => none

end Reader

/-- The most containers around each other that a text may hold. -/
def maxDepth : Nat := 127

/-- The value that a text describes. -/
def parse? (text : String) : Option Json := do
  let (value, rest) ← Reader.value maxDepth (Reader.skipBlank text.toList)
  if (Reader.skipBlank rest).isEmpty then some value else none

end ScriptStyle.Json
