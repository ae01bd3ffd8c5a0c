import ScriptStyle.Glob

/-!
Reading patterns for paths. Besides the stars and the question mark a pattern may hold classes
of characters in brackets, alternatives in braces, and backslashes before characters that stand
for themselves.
-/

namespace ScriptStyle.Glob

/-- The bytes of a character. -/
def bytesOf (c : Char) : List UInt8 :=
  String.utf8EncodeChar c

/-- A piece of a pattern: alternatives, each a list of parts. -/
abbrev Piece := List (List GlobPart)

/-- The alternatives of pieces after each other. -/
def sequence : List Piece → List (List GlobPart)
  | [] => [[]]
  | piece :: others => piece.flatMap fun front => (sequence others).map (front ++ ·)

/-- A branch that is being read, its last piece first, and the finished branches between the
braces before it. -/
structure Frame where
  finished : List (List Piece)
  pieces : List Piece

/-- What has been read: the innermost frame, the frames around it, and the last character. -/
structure State where
  frame : Frame
  outer : List Frame
  last : Option Char

namespace State

/-- The state before a pattern. -/
def start : State :=
  ⟨⟨[], []⟩, [], none⟩

/-- Adds a piece to the branch that is being read. -/
def push (state : State) (piece : Piece) : State :=
  { state with frame := { state.frame with pieces := piece :: state.frame.pieces } }

/-- Adds parts to the branch that is being read. -/
def pushParts (state : State) (parts : List GlobPart) : State :=
  parts.foldl (fun state part => state.push [[part]]) state

/-- Puts a part in the place of the last one, unless that one already leads on from a front or
an end. -/
def replaceLast (state : State) (part : GlobPart) : State :=
  match state.frame.pieces with
  | [] => state.push [[part]]
  | piece :: others =>
      if piece == [[.leading]] || piece == [[.trailing]] then
        state
      else
        { state with frame := { state.frame with pieces := [[part]] :: others } }

end State

/-- Closes the innermost braces. Empty branches are left out. -/
def close? (state : State) : Option State :=
  match state.outer with
  | [] => none
  | around :: outer =>
      let branches := (state.frame.pieces :: state.frame.finished).reverse
      let options := branches.flatMap fun pieces => sequence pieces.reverse
      let kept := options.filter (!·.isEmpty)
      let inner : State := ⟨around, outer, state.last⟩
      some (if kept.isEmpty then inner.push [[]] else inner.push kept)

/-- Reads what follows a star: the state after it and the rest of the pattern. -/
def stars (state : State) (text : List Char) : State × List Char :=
  match text with
  | '*' :: rest =>
      let plain := (({ state with last := some '*' }).pushParts [.many, .many], rest)
      if state.frame.pieces.isEmpty then
        match rest with
        | [] => (({ state with last := none }).pushParts [.leading], [])
        | '/' :: rest => (({ state with last := some '/' }).pushParts [.leading], rest)
        | _ => plain
      else if state.last != some '/' then
        plain
      else
        match rest with
        | [] => (({ state with last := none }).replaceLast .trailing, [])
        | '/' :: rest => (({ state with last := some '/' }).replaceLast .between, rest)
        | c :: _ =>
            if (c == ',' || c == '}') && !state.outer.isEmpty then
              (({ state with last := some '*' }).replaceLast .trailing, rest)
            else
              plain
  | rest => (({ state with last := some '*' }).pushParts [.many], rest)

/-- The ranges of characters in a class, up to its closing bracket. `ranges` are those read so
far, the last first; `isOpen` says that a hyphen after the last one waits for its end. -/
def classRanges (isFirst isOpen : Bool) (ranges : List (Char × Char))
    : List Char → Option (List (Char × Char) × List Char)
  | [] => none
  | c :: rest =>
      if c == ']' && !isFirst then
        some ((if isOpen then ('-', '-') :: ranges else ranges).reverse, rest)
      else if c == '-' && !isFirst && !isOpen then
        classRanges false true ranges rest
      else
        match isOpen, ranges with
        | true, (low, _) :: others =>
            if c < low then none else classRanges false false ((low, c) :: others) rest
        | _, _ => classRanges false false ((c, c) :: ranges) rest

/-- The ranges of bytes that a range of characters stands for. -/
def byteRanges (range : Char × Char) : List (UInt8 × UInt8) :=
  let single (byte : UInt8) := (byte, byte)
  if range.1 == range.2 then
    (bytesOf range.1).map single
  else
    match (bytesOf range.1).reverse, bytesOf range.2 with
    | low :: before, high :: after => before.reverse.map single ++ (low, high) :: after.map single
    | _, _ => []

/-- Reads a class after its opening bracket. -/
def charClass? (text : List Char) : Option (GlobPart × List Char) :=
  let (isNegated, body) :=
    match text with
    | '!' :: rest | '^' :: rest => (true, rest)
    | rest => (false, rest)
  (classRanges true false [] body).map fun found =>
    (.oneOf isNegated (found.1.flatMap byteRanges), found.2)

/-- Reads the rest of a pattern, at most `fuel` parts of it. -/
def readFrom : Nat → State → List Char → Option Glob
  | 0, _, _ => none
  | fuel + 1, state, text =>
      match text with
      | [] =>
          if state.outer.isEmpty then some (sequence state.frame.pieces.reverse) else none
      | c :: rest =>
          let next := { state with last := some c }
          match c with
          | '?' => readFrom fuel (next.pushParts [.one]) rest
          | '*' =>
              let (after, rest) := stars state rest
              readFrom fuel after rest
          | '[' => do
              let (part, rest) ← charClass? rest
              readFrom fuel ({ state with last := some ']' }.pushParts [part]) rest
          | '{' => readFrom fuel ⟨⟨[], []⟩, next.frame :: next.outer, next.last⟩ rest
          | '}' => do
              let after ← close? next
              readFrom fuel after rest
          | ',' =>
              if state.outer.isEmpty then
                readFrom fuel (next.pushParts [.literal (bytesOf c)]) rest
              else
                readFrom fuel
                  { next with frame := ⟨next.frame.pieces :: next.frame.finished, []⟩ } rest
          | '\\' =>
              match rest with
              | [] => none
              | c :: rest =>
                  readFrom fuel ({ state with last := some c }.pushParts [.literal (bytesOf c)]) rest
          | c => readFrom fuel (next.pushParts [.literal (bytesOf c)]) rest

/-- The pattern that a text describes, if it is one. -/
def parse? (text : String) : Option Glob :=
  readFrom (text.length + 1) .start text.toList

end ScriptStyle.Glob
