import ScriptStyle.Json.Reader
import ScriptStyle.Toml

/-!
Values without quotes: truth values, numbers, dates and times.
-/

namespace ScriptStyle.Toml

/-- The name under which a time stands in a tree of values. -/
def timeName : String := "$__toml_private_datetime"

/-- Digits of a base, which single underscores may part. -/
def partedDigits? (isDigit : Char → Bool) : List Char → Option (List Char)
  | [] => none
  | [c] => if isDigit c then some [c] else none
  | c :: '_' :: rest => if isDigit c then (partedDigits? isDigit rest).map (c :: ·) else none
  | c :: rest => if isDigit c then (partedDigits? isDigit rest).map (c :: ·) else none

/-- The value of digits in a base. -/
def digitsValue (base : Nat) (digits : List Char) : Nat :=
  digits.foldl (fun value c => value * base + (Json.Reader.hexValue? c).getD 0) 0

/-- A number without its sign, and whether it has one that says it is negative. -/
def unsigned : List Char → Bool × List Char
  | '-' :: rest => (true, rest)
  | '+' :: rest => (false, rest)
  | rest => (false, rest)

/-- Whether an integer can be held. -/
def fitsInteger (isNegative : Bool) (size : Nat) : Bool :=
  if isNegative then decide (size ≤ Nat.pow 2 127) else decide (size < Nat.pow 2 128)

/-- An integer. -/
def integer? (text : List Char) : Option Json :=
  let based (base : Nat) (digits : List Char) : Option Json := do
    let digits ← partedDigits? (fun c => (Json.Reader.hexValue? c).any (decide <| · < base)) digits
    let value := digitsValue base digits
    if fitsInteger false value then some (.ofNat value) else none
  match text with
  | '0' :: 'x' :: digits => based 16 digits
  | '0' :: 'o' :: digits => based 8 digits
  | '0' :: 'b' :: digits => based 2 digits
  | _ => do
      let (isNegative, rest) := unsigned text
      let digits ← partedDigits? Char.isDigit rest
      let value := digitsValue 10 digits
      if (digits.head? == some '0' && decide (1 < digits.length)) || !fitsInteger isNegative value then
        none
      else
        some (.number ((if isNegative then "-" else "") ++ toString value))

/-- The digits of the parts of a number with a point or an exponent. -/
structure FloatParts where
  whole : List Char
  fraction : List Char
  exponent : Int

/-- The parts of a number without its sign. -/
def floatParts? (text : List Char) : Option FloatParts := do
  let isMark (c : Char) : Bool := c == '.' || c == 'e' || c == 'E'
  let whole ← partedDigits? Char.isDigit (text.takeWhile (!isMark ·))
  let afterWhole := text.dropWhile (!isMark ·)
  let isExponent (c : Char) : Bool := c == 'e' || c == 'E'
  let (fraction, afterFraction) ←
    match afterWhole with
    | '.' :: rest => do
        let digits ← partedDigits? Char.isDigit (rest.takeWhile (!isExponent ·))
        some (digits, rest.dropWhile (!isExponent ·))
    | rest => some ([], rest)
  let exponent ←
    match afterFraction with
    | [] => some 0
    | _ :: rest => do
        let (isNegative, digits) := unsigned rest
        let digits ← partedDigits? Char.isDigit digits
        let size : Int := digitsValue 10 digits
        some (if isNegative then -size else size)
  if (whole.head? == some '0' && decide (1 < whole.length)) || afterWhole.isEmpty then
    none
  else
    some { whole, fraction, exponent }

/-- A number with a point or an exponent, an infinity, or a value that is no number. -/
def float? (text : List Char) : Option Json := do
  let (_, rest) := unsigned text
  if rest == "inf".toList || rest == "nan".toList then
    some (.number (String.ofList text))
  else
    let parts ← floatParts? rest
    let significand := digitsValue 10 (parts.whole ++ parts.fraction)
    if Json.Reader.isFinite significand (parts.exponent - parts.fraction.length) then
      some (.number (String.ofList text))
    else
      none

/-- A number of the given count of digits at the front of a text, within bounds. -/
def fixedDigits? (count low high : Nat) (text : List Char) : Option (Nat × List Char) :=
  let digits := text.take count
  let value := digitsValue 10 digits
  if digits.length == count && digits.all Char.isDigit && decide (low ≤ value)
      && decide (value ≤ high) then
    some (value, text.drop count)
  else
    none

/-- The text after a character at its front. -/
def after? (c : Char) : List Char → Option (List Char)
  | first :: rest => if first == c then some rest else none
  | [] => none

/-- The number of days of a month. -/
def daysIn (year month : Nat) : Nat :=
  if month == 2 then
    if year % 4 == 0 && (year % 100 != 0 || year % 400 == 0) then 29 else 28
  else if [4, 6, 9, 11].contains month then
    30
  else
    31

/-- The text after a date. -/
def afterDate? (text : List Char) : Option (List Char) := do
  let (year, rest) ← fixedDigits? 4 0 9999 text
  let (month, rest) ← fixedDigits? 2 1 12 (← after? '-' rest)
  let (_, rest) ← fixedDigits? 2 1 (daysIn year month) (← after? '-' rest)
  some rest

/-- The text after the seconds of a time, which may be left out. -/
def afterSeconds? : List Char → Option (List Char)
  | ':' :: rest => do
      let (_, rest) ← fixedDigits? 2 0 60 rest
      match rest with
      | '.' :: rest => if (rest.head?.map Char.isDigit).getD false then some (rest.dropWhile Char.isDigit) else none
      | rest => some rest
  | rest => some rest

/-- The text after a time of a day. -/
def afterTime? (text : List Char) : Option (List Char) := do
  let (_, rest) ← fixedDigits? 2 0 23 text
  let (_, rest) ← fixedDigits? 2 0 59 (← after? ':' rest)
  afterSeconds? rest

/-- The text after the zone of a time, which may be left out. -/
def afterZone? : List Char → Option (List Char)
  | 'Z' :: rest | 'z' :: rest => some rest
  | '+' :: rest | '-' :: rest => do
      let (_, rest) ← fixedDigits? 2 0 23 rest
      let (_, rest) ← fixedDigits? 2 0 59 (← after? ':' rest)
      some rest
  | rest => some rest

/-- Whether a text is a date, a time, or both. -/
def isTime (text : List Char) : Bool :=
  match afterDate? text with
  | some [] => true
  | some (c :: rest) =>
      (c == 'T' || c == 't' || c == ' ') && ((afterTime? rest).bind afterZone?) == some []
  | none => afterTime? text == some []

/-- The value that a text without quotes stands for. -/
def scalar? (text : List Char) : Option Json :=
  if text == "true".toList then some (.bool true)
  else if text == "false".toList then some (.bool false)
  else if isTime text then some (.object [(timeName, .string (String.ofList text))])
  else integer? text <|> float? text

end ScriptStyle.Toml
