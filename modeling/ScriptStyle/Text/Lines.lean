import ScriptStyle.Text.Blank
import ScriptStyle.Text.Bytes

/-!
Lines and columns. Both are counted from one; columns count characters. LF, CR, CR LF and the
two Unicode separators end a line.
-/

namespace ScriptStyle.Text

/-- The offsets at which the lines of a text begin, save the first, for a text at an offset. -/
def laterLineStarts (offset : Nat) : List Char → List Nat
  | [] => []
  | '\r' :: '\n' :: rest => (offset + 2) :: laterLineStarts (offset + 2) rest
  | c :: rest =>
      let next := offset + c.utf8Size
      if isLineTerminator c then next :: laterLineStarts next rest else laterLineStarts next rest

/-- A text and the offsets at which its lines begin. -/
structure LineIndex where
  text : List Char
  starts : List Nat

namespace LineIndex

/-- The lines of a text. -/
def ofText (text : List Char) : LineIndex :=
  ⟨text, 0 :: laterLineStarts 0 text⟩

/-- The number of lines. -/
def count (index : LineIndex) : Nat :=
  index.starts.length

/-- The line that an offset lies in; an offset past the end lies in the last line. -/
def lineAt (index : LineIndex) (offset : Nat) : Nat :=
  index.starts.countP (· ≤ offset)

/-- The offset at which the line of an offset begins. -/
def lineStart (index : LineIndex) (offset : Nat) : Nat :=
  (index.starts[index.lineAt offset - 1]?).getD 0

/-- The column of an offset. Where the offset is inside a character, bytes are counted. -/
def columnAt (index : LineIndex) (offset : Nat) : Nat :=
  let start := index.lineStart offset
  let stop := min offset (byteLength index.text)
  match slice? index.text start stop with
  | some chars => chars.length + 1
  | none => stop - start + 1

/-- Whether two offsets lie in the same line. -/
def sameLine (index : LineIndex) (first second : Nat) : Bool :=
  index.lineAt first == index.lineAt second

end LineIndex

end ScriptStyle.Text
