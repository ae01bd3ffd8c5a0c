import ScriptStyle.Edit
import ScriptStyle.Text.Bytes

/-!
Applying edits to a text. Edits are checked first; then they are made from the end of the text
to its front, so that the offsets of those still to be made stay valid.
-/

namespace ScriptStyle

/-- Why edits cannot be applied to a text. Edits are named by their places in the list. -/
inductive RewriteError where
  /-- Two edits conflict. -/
  | overlapping (first second : Nat)
  /-- An edit ends past the end of the text, or before it starts. -/
  | outOfBounds (index stop length : Nat)
  /-- An edit starts or ends inside a character. -/
  | splitCharacter (index offset : Nat)
deriving DecidableEq, Repr, Inhabited

namespace RewriteError

/-- The wording of an error. -/
def message : RewriteError → String
  | overlapping first second => "edits " ++ toString first ++ " and " ++ toString second ++ " overlap"
  | outOfBounds index stop length =>
      "edit " ++ toString index ++ " out of bounds: end " ++ toString stop ++ " > source length "
        ++ toString length
  | splitCharacter index offset =>
      "edit " ++ toString index ++ " splits a character at byte " ++ toString offset

end RewriteError

namespace Edit

/-- What is wrong with an edit of a text, taken by itself. -/
def fault? (text : List Char) (index : Nat) (edit : Edit) : Option RewriteError :=
  if edit.span.stop > Text.byteLength text || edit.span.start > edit.span.stop then
    some (.outOfBounds index edit.span.stop (Text.byteLength text))
  else if !Text.isBoundary text edit.span.start then
    some (.splitCharacter index edit.span.start)
  else if !Text.isBoundary text edit.span.stop then
    some (.splitCharacter index edit.span.stop)
  else
    none

/-- The first two neighbours in a list that conflict. -/
def conflictingNeighbours? : List (Edit × Nat) → Option RewriteError
  | first :: second :: rest =>
      if first.1.conflicts second.1 then
        some (.overlapping (min first.2 second.2) (max first.2 second.2))
      else
        conflictingNeighbours? (second :: rest)
  | _ => none

/-- Whether edits can be applied to a text. In the order of their spans, only neighbours
need to be compared. -/
def validate (text : List Char) (edits : List Edit) : Except RewriteError Unit :=
  match edits.zipIdx.findSome? (fun edit => fault? text edit.2 edit.1) with
  | some fault => .error fault
  | none =>
      match conflictingNeighbours?
          (edits.zipIdx.mergeSort fun first second => first.1.span.precedes second.1.span) with
      | some fault => .error fault
      | none => .ok ()

/-- A text with one edit made; unchanged where the edit does not fit. -/
def apply (text : List Char) (edit : Edit) : List Char :=
  match Text.cutAt? text edit.span.start, Text.cutAt? text edit.span.stop with
  | some (before, _), some (_, after) => before ++ edit.replacement.toList ++ after
  | _, _ => text

/-- A text with edits made, or why they cannot be made. Of two edits with one start the longer
is made first, so that an insertion comes to stand in front of a replacement. -/
def applyAll (text : List Char) (edits : List Edit) : Except RewriteError (List Char) := do
  validate text edits
  let sorted := edits.mergeSort fun first second => second.span.precedes first.span
  pure (sorted.foldl apply text)

end Edit

end ScriptStyle
