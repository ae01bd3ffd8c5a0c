/-!
Patterns for paths. They are matched against the bytes of a path, so that a question mark stands
for one byte.
-/

namespace ScriptStyle

/-- One part of a pattern. -/
inductive GlobPart where
  /-- The bytes themselves. -/
  | literal (bytes : List UInt8)
  /-- A question mark: one byte other than a slash. -/
  | one
  /-- A star: bytes other than slashes. -/
  | many
  /-- Two stars and a slash at the front: nothing, or folders with the slash after them. -/
  | leading
  /-- A slash and two stars at the end: a slash and anything after it. -/
  | trailing
  /-- Two stars between slashes: a slash, or folders between two slashes. -/
  | between
  /-- One byte in one of the ranges, or in none of them. -/
  | oneOf (isNegated : Bool) (ranges : List (UInt8 × UInt8))
deriving DecidableEq, Repr, Inhabited

/-- A pattern: a path fits it if it fits one of its branches. -/
abbrev Glob := List (List GlobPart)

namespace GlobPart

/-- The byte of a slash. -/
def slash : UInt8 := 0x2f

/-- What can be left of some bytes after any number of them from the front, as long as each of
those has a property. -/
def restsWhile (p : UInt8 → Bool) : List UInt8 → List (List UInt8)
  | [] => [[]]
  | byte :: rest => (byte :: rest) :: (if p byte then restsWhile p rest else [])

/-- What can be left of some bytes after one of their slashes. -/
def restsAfterSlash : List UInt8 → List (List UInt8)
  | [] => []
  | byte :: rest => (if byte == slash then [rest] else []) ++ restsAfterSlash rest

/-- What can be left of some bytes after a part has been matched at their front. -/
def rests (part : GlobPart) (bytes : List UInt8) : List (List UInt8) :=
  match part with
  | .literal word => if word.isPrefixOf bytes then [bytes.drop word.length] else []
  | .one =>
      match bytes with
      | byte :: rest => if byte == slash then [] else [rest]
      | [] => []
  | .many => restsWhile (· != slash) bytes
  | .leading => bytes :: restsAfterSlash bytes
  | .trailing =>
      match bytes with
      | byte :: rest => if byte == slash then restsWhile (fun _ => true) rest else []
      | [] => []
  | .between =>
      match bytes with
      | byte :: rest => if byte == slash then rest :: restsAfterSlash rest else []
      | [] => []
  | .oneOf isNegated ranges =>
      match bytes with
      | byte :: rest =>
          let isIn := ranges.any fun range => decide (range.1 ≤ byte) && decide (byte ≤ range.2)
          if isIn != isNegated then [rest] else []
      | [] => []

/-- Whether bytes fit a list of parts from their front to their end. -/
def fitAll : List GlobPart → List UInt8 → Bool
  | [], bytes => bytes.isEmpty
  | part :: others, bytes => (part.rests bytes).any (fitAll others)

end GlobPart

namespace Glob

/-- Whether a path fits a pattern. Two stars alone fit every path. -/
def fits (glob : Glob) (path : String) : Bool :=
  glob == [[.leading]] || glob.any (GlobPart.fitAll · path.toUTF8.toList)

end Glob

end ScriptStyle
