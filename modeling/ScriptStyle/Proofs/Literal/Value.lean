import ScriptStyle.Literal.Escape
import ScriptStyle.Style
import Mathlib.Data.List.TakeWhile

/-!
The value that a script gives to a literal, by the grammar of its escapes. A value is a list of
UTF-16 code units. The reader of values shares nothing with the code that rewrites literals.
-/

namespace ScriptStyle.Literal

-----------------------------------------------------------------------------------------
-- Digits
-----------------------------------------------------------------------------------------

/-- Whether a character is a hexadecimal digit. -/
def isHexDigit (c : Char) : Bool :=
  c.isDigit || (decide ('a' ≤ c) && decide (c ≤ 'f')) || (decide ('A' ≤ c) && decide (c ≤ 'F'))

/-- Whether a character is an octal digit. -/
def isOctalDigit (c : Char) : Bool :=
  decide ('0' ≤ c) && decide (c ≤ '7')

/-- The value of a digit of any base up to sixteen. -/
def digitValue (c : Char) : Nat :=
  if c.isDigit then c.toNat - 48 else if 'a' ≤ c then c.toNat - 87 else c.toNat - 55

/-- The number that digits stand for. -/
def numeral (base : Nat) (digits : List Char) : Nat :=
  digits.foldl (fun value digit => value * base + digitValue digit) 0

-----------------------------------------------------------------------------------------
-- Escapes
-----------------------------------------------------------------------------------------

/-- What one character or escape of a literal adds to its value. -/
inductive Element where
  /-- A code point. -/
  | codePoint (value : Nat)
  /-- An escaped line break, which adds nothing. -/
  | continuation
  /-- An octal escape, or an escaped eight or nine; templates do not have them. -/
  | octal (value : Nat)
deriving DecidableEq, Repr

/-- Whether an element is written with an escape that templates do not have. -/
def Element.isOctal : Element → Bool
  | .octal _ => true
  | .codePoint _ | .continuation => false

/-- The code units of an element. -/
def Element.units : Element → List Nat
  | .codePoint value =>
      if value < 0x10000 then
        [value]
      else
        [0xD800 + (value - 0x10000) / 0x400, 0xDC00 + (value - 0x10000) % 0x400]
  | .octal value => [value]
  | .continuation => []

/-- An escape of two or four hexadecimal digits, whose letter is already read. -/
def hexEscape? (count : Nat) (text : List Char) : Option (Element × Nat) :=
  let digits := (text.takeWhile isHexDigit).take count
  if digits.length = count then some (.codePoint (numeral 16 digits), count + 1) else none

/-- An escape of a code point between braces, the first of which is already read. -/
def bracedEscape? (text : List Char) : Option (Element × Nat) :=
  let digits := text.takeWhile isHexDigit
  if digits ≠ [] ∧ numeral 16 digits ≤ 0x10FFFF ∧ (text.dropWhile isHexDigit).head? = some '}' then
    some (.codePoint (numeral 16 digits), digits.length + 3)
  else
    none

/-- An escape that begins with a digit. Templates have only that of the null character. -/
def digitEscape? (style : QuoteStyle) (digit : Char) (text : List Char) : Option (Element × Nat) :=
  if digit = '0' ∧ !(text.head?.any Char.isDigit) then
    some (.codePoint 0, 1)
  else if style = .backtick then
    none
  else if isOctalDigit digit then
    let digits := digit :: (text.takeWhile isOctalDigit).take (if digit ≤ '3' then 2 else 1)
    some (.octal (numeral 8 digits), digits.length)
  else
    some (.octal digit.toNat, 1)

/-- The character that an escape of one character stands for. -/
def simpleEscape : Char → Char
  | 'b' => '\x08'
  | 't' => '\t'
  | 'n' => '\n'
  | 'v' => '\x0b'
  | 'f' => '\x0c'
  | 'r' => '\r'
  | c => c

/-- The escape after a backslash and the number of its characters, unless it is malformed. -/
def escape? (style : QuoteStyle) : List Char → Option (Element × Nat)
  | [] => none
  | c :: rest =>
      if c = 'x' then
        hexEscape? 2 rest
      else if c = 'u' then
        if rest.head? = some '\x7b' then bracedEscape? rest.tail else hexEscape? 4 rest
      else if c.isDigit then
        digitEscape? style c rest
      else if Text.isLineTerminator c then
        some (.continuation, if c = '\r' ∧ rest.head? = some '\n' then 2 else 1)
      else
        some (.codePoint (simpleEscape c).toNat, 1)

-----------------------------------------------------------------------------------------
-- Values
-----------------------------------------------------------------------------------------

/-- The elements of the text between two quotes, after some characters that belong to an escape
before it. There are none if an escape is malformed. A line break of a template is a line feed,
however it is written. -/
def elements? (style : QuoteStyle) : Nat → List Char → Option (List Element)
  | _, [] => some []
  | skip + 1, _ :: rest => elements? style skip rest
  | 0, c :: rest =>
      if c = '\\' then
        (escape? style rest).bind fun found =>
          (elements? style found.2 rest).map (found.1 :: ·)
      else if style = .backtick ∧ c = '\r' then
        (elements? style (if rest.head? = some '\n' then 1 else 0) rest).map (.codePoint 10 :: ·)
      else
        (elements? style 0 rest).map (.codePoint c.toNat :: ·)

/-- The elements of a literal, delimiters included, in the style of its first character. -/
def literalElements? (raw : List Char) : Option (List Element) :=
  (QuoteStyle.ofLiteral? raw).bind fun style => elements? style 0 raw.tail.dropLast

/-- The value of a literal, unless one of its escapes is malformed. -/
def value? (raw : List Char) : Option (List Nat) :=
  (literalElements? raw).map fun found => found.flatMap Element.units

/-- Whether a literal holds an octal escape or an escaped eight or nine. -/
def holdsOctal (raw : List Char) : Bool :=
  (literalElements? raw).any fun found => found.any Element.isOctal

example : value? "'a\\x41\\u{1F600}\\\r\n\\101\\8'".toList
    = some [97, 65, 0xD83D, 0xDE00, 65, 56] := by decide

-----------------------------------------------------------------------------------------
-- Plain characters
-----------------------------------------------------------------------------------------

/-- The characters that rewriting a literal looks for. -/
def delimiterChars : List Char := ['\'', '\x22', '\x60', '\\', '$', '\r', '\n']

/-- Whether a character means nothing to the rewriting of literals. -/
def isPlain (c : Char) : Bool :=
  !delimiterChars.contains c

/-- A property that no delimiter has belongs to plain characters only. -/
theorem isPlain_of {p : Char → Bool} (none : delimiterChars.all (!p ·)) {c : Char}
    (holds : p c)
    : isPlain c := by
  cases member : delimiterChars.contains c with
  | false => simp only [isPlain, member, Bool.not_false]
  | true =>
      have absent := List.all_eq_true.mp none c (List.contains_iff_mem.mp member)
      rw [holds] at absent
      cases absent

/-- Hexadecimal digits are plain. -/
theorem isPlain_of_isHexDigit {c : Char} (holds : isHexDigit c) : isPlain c :=
  isPlain_of (by decide) holds

/-- Decimal digits are plain. -/
theorem isPlain_of_isDigit {c : Char} (holds : c.isDigit) : isPlain c :=
  isPlain_of (by decide) holds

/-- Octal digits are plain. -/
theorem isPlain_of_isOctalDigit {c : Char} (holds : isOctalDigit c) : isPlain c :=
  isPlain_of (by decide) holds

/-- What is taken while a property holds has that property, also when it is cut shorter. -/
theorem of_mem_take_takeWhile {p : Char → Bool} {count : Nat} {text : List Char} {c : Char}
    (within : count ≤ (text.takeWhile p).length) (member : c ∈ text.take count)
    : p c := by
  rw [← List.takeWhile_append_dropWhile (p := p) (l := text),
    List.take_append_of_le_length within] at member
  exact List.mem_takeWhile_imp (List.mem_of_mem_take member)

/-- An escape of hexadecimal digits takes plain characters only. -/
theorem plain_of_hexEscape {count : Nat} {text : List Char} {element : Element} {length : Nat}
    (escaped : hexEscape? count text = some (element, length))
    : ∀ x ∈ text.take (length - 1), isPlain x := by
  simp only [hexEscape?, List.length_take, Option.ite_none_right_eq_some, Option.some.injEq,
    Prod.mk.injEq] at escaped
  obtain ⟨enough, -, rfl⟩ := escaped
  intro x member
  exact isPlain_of_isHexDigit (of_mem_take_takeWhile (by omega) member)

/-- An escape between braces takes plain characters only, the first brace included. -/
theorem plain_of_bracedEscape {text : List Char} {element : Element} {length : Nat}
    (escaped : bracedEscape? text = some (element, length))
    : ∀ x ∈ ('\x7b' :: text).take (length - 1), isPlain x := by
  simp only [bracedEscape?] at escaped
  split at escaped
  · next conditions =>
      obtain ⟨-, -, closed⟩ := conditions
      simp only [Option.some.injEq, Prod.mk.injEq] at escaped
      obtain ⟨-, rfl⟩ := escaped
      obtain ⟨others, dropped⟩ := List.head?_eq_some_iff.mp closed
      have joined : text = (text.takeWhile isHexDigit ++ ['}']) ++ others := by
        rw [List.append_assoc, List.singleton_append, ← dropped,
          List.takeWhile_append_dropWhile]
      have plain : ∀ x ∈ text.takeWhile isHexDigit ++ ['}'], isPlain x := by
        intro x member
        rcases List.mem_append.mp member with digit | brace
        · exact isPlain_of_isHexDigit (List.mem_takeWhile_imp digit)
        · rw [List.mem_singleton.mp brace]
          decide
      have counted : (text.takeWhile isHexDigit).length + 3 - 1
          = (text.takeWhile isHexDigit ++ ['}']).length + 1 := by
        simp
      rw [counted, List.take_succ_cons]
      generalize text.takeWhile isHexDigit ++ ['}'] = run at joined plain
      intro x member
      rcases List.mem_cons.mp member with rfl | within
      · decide
      · rw [joined, List.take_left] at within
        exact plain x within
  · cases escaped

/-- An escape that begins with a digit takes plain characters only. -/
theorem plain_of_digitEscape {style : QuoteStyle} {digit : Char} {text : List Char}
    {element : Element} {length : Nat}
    (escaped : digitEscape? style digit text = some (element, length))
    : ∀ x ∈ text.take (length - 1), isPlain x := by
  simp only [digitEscape?] at escaped
  generalize (if digit ≤ '3' then 2 else 1) = most at escaped
  split_ifs at escaped <;> obtain ⟨rfl, rfl⟩ := Prod.mk.inj (Option.some.inj escaped)
  · simp
  · intro x member
    refine isPlain_of_isOctalDigit (of_mem_take_takeWhile ?_ member)
    simp only [List.length_cons, List.length_take, Nat.add_one_sub_one]
    exact Nat.min_le_right _ _
  · simp

/-- The characters that an escape takes after its first are plain, save the second half of an
escaped CR LF pair. -/
theorem plain_of_escape {style : QuoteStyle} {c : Char} {rest : List Char} {element : Element}
    {length : Nat} (escaped : escape? style (c :: rest) = some (element, length))
    (unpaired : ¬(c = '\r' ∧ rest.head? = some '\n'))
    : ∀ x ∈ rest.take (length - 1), isPlain x := by
  simp only [escape?] at escaped
  split_ifs at escaped with isX isU braced isDigit isBreak
  · exact plain_of_hexEscape escaped
  · obtain ⟨after, rfl⟩ := List.head?_eq_some_iff.mp braced
    exact plain_of_bracedEscape escaped
  · exact plain_of_hexEscape escaped
  · exact plain_of_digitEscape escaped
  · obtain ⟨rfl, rfl⟩ := Prod.mk.inj (Option.some.inj escaped)
    simp
  · obtain ⟨rfl, rfl⟩ := Prod.mk.inj (Option.some.inj escaped)
    simp

end ScriptStyle.Literal
