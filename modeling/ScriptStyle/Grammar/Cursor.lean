import ScriptStyle.TokenList

/-!
A place between the tokens of a source. The tokens behind it are fixed; those ahead may still
be read again when a slash turns out to mean something else than was guessed.
-/

namespace ScriptStyle.Grammar

/-- A place in the tokens of a source. -/
structure Cursor where
  /-- The tokens up to the current one, comments included. -/
  behind : Array Token
  /-- The tokens from the current one on. The first of them is never a comment. -/
  ahead : List ScannedToken
  /-- What stopped the reading of tokens, if they do not reach the end of the source. -/
  fault : Option SyntaxError
  /-- The index of the last significant token behind, zero if there is none. -/
  lastIndex : Nat
  /-- The end of the last significant token behind, zero if there is none. -/
  lastStop : Nat
  /-- The length of the source in bytes. -/
  sourceLength : Nat
  /-- The indices of the braces that close the bodies of arrow functions, the last first. -/
  arrowEnds : List Nat

/-- The significant tokens among some tokens. -/
def significant (entries : List ScannedToken) : List Token :=
  (entries.map ScannedToken.token).filter Token.isSignificant

namespace Cursor

/-- A cursor with the comments at its front moved behind it. -/
def skipComments (cursor : Cursor) : Cursor :=
  { cursor with
    behind := cursor.behind ++ (cursor.ahead.takeWhile (·.token.kind.isComment)).toArray.map
      ScannedToken.token
    ahead := cursor.ahead.dropWhile (·.token.kind.isComment) }

/-- A cursor before the first token of a source of the given length. -/
def ofTokens (list : TokenList) (sourceLength : Nat) : Cursor :=
  skipComments {
    behind := #[]
    ahead := list.entries
    fault := list.fault
    lastIndex := 0
    lastStop := 0
    sourceLength
    arrowEnds := [] }

/-- The current token. -/
def peek? (cursor : Cursor) : Option Token :=
  cursor.ahead.head?.map ScannedToken.token

/-- The significant token after a number of others, counted from the current one. -/
def peekAt? (cursor : Cursor) (count : Nat) : Option Token :=
  (significant cursor.ahead)[count]?

/-- The index of the current token, or the number of all tokens at the end. -/
def index (cursor : Cursor) : Nat :=
  cursor.behind.size

/-- The byte offset of the current token, or the length of the source at the end. -/
def offset (cursor : Cursor) : Nat :=
  match cursor.peek? with
  | some token => token.span.start
  | none => cursor.sourceLength

/-- The number of bytes from the current token to the end of the source. -/
def remaining (cursor : Cursor) : Nat :=
  cursor.sourceLength - cursor.offset

/-- Whether the significant token after a number of others is the given keyword or punctuator. -/
def seesNth (cursor : Cursor) (count : Nat) (text : String) : Bool :=
  (cursor.peekAt? count).any (·.isTerminal text)

/-- Whether the current token is the given keyword or punctuator. -/
def sees (cursor : Cursor) (text : String) : Bool :=
  cursor.peek?.any (·.isTerminal text)

/-- Whether the current token is of the given kind. -/
def atKind (cursor : Cursor) (kind : TokenKind) : Bool :=
  cursor.peek?.any (·.kind == kind)

/-- Whether the significant token after a number of others begins a line. -/
def newlineAt (cursor : Cursor) (count : Nat) : Bool :=
  (cursor.peekAt? count).any (·.newlineBefore)

/-- A cursor after the current token; at the end it stays. -/
def advance (cursor : Cursor) : Cursor :=
  match cursor.ahead with
  | [] => cursor
  | entry :: rest =>
      skipComments { cursor with
        behind := cursor.behind.push entry.token
        ahead := rest
        lastIndex := cursor.behind.size
        lastStop := entry.token.span.stop }

/-- A cursor whose current token, and all after it, were read again with the given reading of
a slash. Only a token that begins with a slash is read again. -/
def reread (cursor : Cursor) (reading : SlashReading) : Cursor :=
  match cursor.ahead with
  | [] => cursor
  | entry :: _ =>
      if entry.token.startsWithSlash then
        let list := TokenList.scan entry.scanner reading
        { cursor with ahead := list.entries, fault := list.fault }
      else
        cursor

/-- The error for a source that stops early. A fault that cut the tokens short comes first. -/
def endOfInput (cursor : Cursor) (expected : String) : SyntaxError :=
  cursor.fault.getD (.unexpectedEnd cursor.sourceLength expected)

/-- The error for a current token that the grammar does not allow. -/
def unexpected (cursor : Cursor) (expected : String) : SyntaxError :=
  match cursor.peek? with
  | some token => .unexpectedToken token.text token.span.start expected
  | none => cursor.endOfInput expected

/-- All tokens, behind and ahead. -/
def tokens (cursor : Cursor) : Array Token :=
  cursor.behind ++ (cursor.ahead.map ScannedToken.token).toArray

end Cursor

end ScriptStyle.Grammar
