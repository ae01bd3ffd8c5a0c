/-!
Characters that separate tokens: line terminators and other white space.
-/

namespace ScriptStyle.Text

/-- Whether a character ends a line: LF, CR, and the two Unicode separators. -/
def isLineTerminator (c : Char) : Bool :=
  c == '\n' || c == '\r' || c == '\u2028' || c == '\u2029'

/-- Whether a character has the Unicode property `White_Space`. -/
def isWhiteSpace (c : Char) : Bool :=
  let n := c.toNat
  (decide (0x9 ≤ n) && decide (n ≤ 0xd)) || n == 0x20 || n == 0x85 || n == 0xa0 || n == 0x1680
    || (decide (0x2000 ≤ n) && decide (n ≤ 0x200a)) || n == 0x2028 || n == 0x2029 || n == 0x202f
    || n == 0x205f || n == 0x3000

/-- Whether a character may stand between tokens: white space or a byte order mark. -/
def isBlank (c : Char) : Bool :=
  isWhiteSpace c || c == '\ufeff'

end ScriptStyle.Text
