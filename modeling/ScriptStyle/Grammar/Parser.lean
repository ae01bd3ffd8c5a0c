import ScriptStyle.Grammar.Cursor
import ScriptStyle.Tree

/-!
Parsers move a cursor and give a result, or fail. Repetitions are bounded by the bytes
that remain, since every round takes at least one token.
-/

namespace ScriptStyle.Grammar

/-- A parser moves a cursor forward and gives a result, or fails with an error. -/
abbrev Parser (α : Type) := StateT Cursor (Except SyntaxError) α

namespace Parser

/-- Fails because the current token is not what was expected. -/
def unexpected {α : Type} (expected : String) : Parser α := fun cursor =>
  .error (cursor.unexpected expected)

/-- Fails because the source ends where something was expected. -/
def endOfInput {α : Type} (expected : String) : Parser α := fun cursor =>
  .error (cursor.endOfInput expected)

/-- Moves past the current token. -/
def advance : Parser Unit := fun cursor =>
  .ok ((), cursor.advance)

/-- Reads the tokens again from the current one, if that begins with a slash. -/
def reread (reading : SlashReading) : Parser Unit := fun cursor =>
  .ok ((), cursor.reread reading)

/-- Moves past the current token if a condition holds. -/
def advanceIf (condition : Bool) : Parser Unit :=
  if condition then advance else pure ()

/-- Reads the tokens again from the current one, if that is of the given kind and begins with
a slash. -/
def rereadAt (kind : TokenKind) (reading : SlashReading) : Parser Unit := do
  if (← get).atKind kind then reread reading else pure ()

/-- Moves past the current token if it is the given one, and tells whether it was. -/
def eat (text : String) : Parser Bool := fun cursor =>
  if cursor.sees text then .ok (true, cursor.advance) else .ok (false, cursor)

/-- Moves past the given token, which must be the current one. -/
def expect (text : String) : Parser Unit := fun cursor =>
  if cursor.sees text then .ok ((), cursor.advance) else .error (cursor.unexpected text)

/-- An item if a condition holds. -/
def onlyIf {α : Type} (condition : Bool) (item : Parser α) : Parser (Option α) :=
  if condition then some <$> item else pure none

/-- An item after the given token, if that is at the cursor. -/
def after? {α : Type} (text : String) (item : Parser α) : Parser (Option α) := do
  onlyIf (← eat text) item

/-- Whether the current token is the given closing punctuator. There must be a current token. -/
def atClose (closing : String) : Parser Bool := fun cursor =>
  match cursor.peek? with
  | some token => .ok (token.isPunctuator closing, cursor)
  | none => .error (cursor.endOfInput closing)

/-- The byte offset of the current token, which must exist. -/
def start : Parser Nat := fun cursor =>
  match cursor.peek? with
  | some token => .ok (token.span.start, cursor)
  | none => .error (cursor.endOfInput "more input")

/-- The span from an offset to the end of the last token. -/
def spanFrom (start : Nat) : Parser Span := fun cursor =>
  .ok (⟨start, max cursor.lastStop start⟩, cursor)

/-- The extent from an offset and token index to the last token. -/
def extentFrom (start first : Nat) : Parser Extent := fun cursor =>
  .ok (⟨⟨start, max cursor.lastStop start⟩, ⟨first, cursor.lastIndex⟩⟩, cursor)

/-- The end of a statement or field: a semicolon of its own, or a place where one may be
left out, which is the end of the source, before a closing brace, and before a new line. -/
def consumeSemicolon : Parser Unit := fun cursor =>
  if cursor.sees ";" then
    .ok ((), cursor.advance)
  else
    match cursor.peek? with
    | none => .ok ((), cursor)
    | some token =>
        if token.isPunctuator "\x7d" || token.newlineBefore then
          .ok ((), cursor)
        else
          .error (cursor.unexpected "`;`")

/-- Notes that the last token closes the body of an arrow function. -/
def markArrowEnd : Parser Unit := fun cursor =>
  .ok ((), { cursor with arrowEnds := cursor.lastIndex :: cursor.arrowEnds })

/-- What one round of a repetition finds. -/
inductive Round (α : Type) where
  /-- Nothing, and the repetition stops. -/
  | stop
  /-- An item that ends the repetition. -/
  | last (item : α)
  /-- An item after which the repetition goes on. -/
  | more (item : α)

/-- Repeats a round at most `fuel` times and gives the items that were found. -/
def roundsUpTo {α : Type} (round : Parser (Round α)) : Nat → Parser (List α)
  | 0 => pure []
  | fuel + 1 => do
      match ← round with
      | .stop => pure []
      | .last item => pure [item]
      | .more item => do
          let others ← roundsUpTo round fuel
          pure (item :: others)

/-- Repeats a round until it stops. A round that goes on takes at least one byte. -/
def rounds {α : Type} (round : Parser (Round α)) : Parser (List α) := fun cursor =>
  roundsUpTo round (cursor.remaining + 1) cursor

/-- A round of a repetition that stops in front of a closing punctuator. -/
def unlessClosed {α : Type} (closing : String) (round : Parser (Round α)) : Parser (Round α) := do
  if ← atClose closing then pure .stop else round

/-- Items up to a closing punctuator, which is taken too. -/
def itemsUntil {α : Type} (closing : String) (item : Parser α) : Parser (List α) := do
  let items ← rounds (unlessClosed closing (Round.more <$> item))
  advance
  pure items

/-- An item, and whether a comma and another follow it. -/
def itemThenComma {α : Type} (item : Parser α) : Parser (Round α) := do
  let found ← item
  if ← eat "," then pure (.more found) else pure (.last found)

/-- One item, or more with commas between them. -/
def commaSeparated {α : Type} (item : Parser α) : Parser (List α) :=
  rounds (itemThenComma item)

/-- Items with commas between them up to a closing punctuator; a last comma may precede it. -/
def commaListUntil {α : Type} (closing : String) (item : Parser α) : Parser (List α) := do
  let items ← rounds (unlessClosed closing (itemThenComma item))
  expect closing
  pure items

end Parser

end ScriptStyle.Grammar
