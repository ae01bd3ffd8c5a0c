import ScriptStyle.Span

/-!
Replacements of parts of a text. All offsets are those of the text before any replacement.
-/

namespace ScriptStyle

/-- A replacement of the bytes in a span. -/
structure Edit where
  span : Span
  replacement : String
  description : Option String
deriving DecidableEq, Repr, Inhabited

namespace Edit

/-- Whether an edit only adds text. -/
def isInsertion (edit : Edit) : Bool :=
  edit.span.start == edit.span.stop

/-- Whether the spans of two edits share a byte. -/
def overlaps (first second : Edit) : Bool :=
  decide (first.span.start < second.span.stop) && decide (second.span.start < first.span.stop)

/-- Whether two edits cannot both be made: they overlap, or both add text at one place,
where their order would be open. Edits that only touch do not conflict. -/
def conflicts (first second : Edit) : Bool :=
  first.overlaps second
    || (first.isInsertion && second.isInsertion && first.span.start == second.span.start)

end Edit

namespace Span

/-- Whether a span comes before another or is the same: by its start, then by its end. -/
def precedes (first second : Span) : Bool :=
  decide (first.start < second.start)
    || (first.start == second.start && decide (first.stop ≤ second.stop))

end Span

end ScriptStyle
