import ScriptStyle.Token

/-!
The significant tokens next to a token, and whether one of them could continue the statement
before it.
-/

namespace ScriptStyle.Neighbour

/-- The first significant token after an index, with its own index. -/
def next? (tokens : Array Token) (index : Nat) : Option (Token × Nat) :=
  (tokens.toList.zipIdx.drop (index + 1)).find? fun entry => entry.1.isSignificant

/-- The last significant token before an index, with its own index. -/
def previous? (tokens : Array Token) (index : Nat) : Option (Token × Nat) :=
  (tokens.toList.zipIdx.take index).reverse.find? fun entry => entry.1.isSignificant

/-- The characters with which a line could continue the statement before it. -/
def continuationChars : List Char := ['(', '[', '\x60', '+', '-', '/']

/-- Whether a line that begins with a token could continue the statement before it. -/
def isHazard (token : Token) : Bool :=
  token.text.toList.head?.any continuationChars.contains
    && token.text != "++" && token.text != "--"

/-- Whether there is a token and a line that begins with it could continue a statement. -/
def isHazard? (token : Option Token) : Bool :=
  token.any isHazard

end ScriptStyle.Neighbour
