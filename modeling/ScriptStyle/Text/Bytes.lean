/-!
Texts as lists of characters, measured in the bytes of their UTF-8 encoding.
All offsets in this library are such byte counts.
-/

namespace ScriptStyle.Text

/-- The number of bytes in the UTF-8 encoding of a text. -/
def byteLength : List Char → Nat
  | [] => 0
  | c :: rest => c.utf8Size + byteLength rest

@[simp] theorem byteLength_nil : byteLength [] = 0 := rfl

@[simp] theorem byteLength_cons (c : Char) (rest : List Char)
    : byteLength (c :: rest) = c.utf8Size + byteLength rest := rfl

@[simp] theorem byteLength_append (first second : List Char)
    : byteLength (first ++ second) = byteLength first + byteLength second := by
  induction first with
  | nil => simp
  | cons c rest ih => simp [ih, Nat.add_assoc]

/-- The two parts of a text before and from a byte offset.
There are none past the end and inside a character. -/
def cutAt? : List Char → Nat → Option (List Char × List Char)
  | text, 0 => some ([], text)
  | [], _ + 1 => none
  | c :: rest, offset + 1 =>
      if c.utf8Size ≤ offset + 1 then
        (cutAt? rest (offset + 1 - c.utf8Size)).map fun parts => (c :: parts.1, parts.2)
      else
        none

/-- Whether a byte offset lies between two characters or at an end of the text. -/
def isBoundary (text : List Char) (offset : Nat) : Bool :=
  (cutAt? text offset).isSome

/-- The text from one byte offset to another, if both are boundaries in order. -/
def slice? (text : List Char) (start stop : Nat) : Option (List Char) :=
  if start ≤ stop then
    (cutAt? text start).bind fun parts => (cutAt? parts.2 (stop - start)).map Prod.fst
  else
    none

/-- The text from one byte offset to another, empty where there is no such slice. -/
def slice (text : List Char) (start stop : Nat) : List Char :=
  (slice? text start stop).getD []

/-- Whether a text begins with the characters of a word. -/
def startsWith (word : String) (text : List Char) : Bool :=
  word.toList.isPrefixOf text

/-- How many characters at the front of a text have a property. -/
def lengthWhile (p : Char → Bool) : List Char → Nat
  | [] => 0
  | c :: rest => if p c then lengthWhile p rest + 1 else 0

end ScriptStyle.Text
