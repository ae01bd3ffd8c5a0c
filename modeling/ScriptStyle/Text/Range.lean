/-!
Character classes given by ranges of code points, as the Unicode character database lists them.
-/

namespace ScriptStyle.Text

/-- A table of code point ranges, both ends included. -/
abbrev RangeTable := List (Nat × Nat)

/-- Whether a character's code point lies in one of the ranges. -/
def RangeTable.contains (table : RangeTable) (c : Char) : Bool :=
  table.any fun range => decide (range.1 ≤ c.toNat) && decide (c.toNat ≤ range.2)

end ScriptStyle.Text
