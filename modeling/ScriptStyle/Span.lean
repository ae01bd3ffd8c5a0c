/-!
Half-open ranges of byte offsets into a source text.
-/

namespace ScriptStyle

/-- The bytes from `start` up to but not including `stop`. -/
structure Span where
  start : Nat
  stop : Nat
deriving DecidableEq, Repr, Inhabited

namespace Span

/-- The number of bytes in a span. -/
def length (span : Span) : Nat :=
  span.stop - span.start

/-- A span without some bytes at each end. -/
def shrink (span : Span) (lead trail : Nat) : Span :=
  ⟨span.start + lead, span.stop - trail⟩

end Span

end ScriptStyle
