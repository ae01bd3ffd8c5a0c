import ScriptStyle.Scanner.Lexeme
import ScriptStyle.SyntaxError
import ScriptStyle.Token

/-!
Reading one token after another from a source text. Two characters need more than the text
at hand: a slash begins a regular expression or a division, and a closing brace ends a block
or resumes a template. The scanner remembers the last significant token for the first
and the open braces for the second.
-/

namespace ScriptStyle

/-- How a slash at the front of the next token is read. -/
inductive SlashReading where
  /-- By a guess from the token before it. -/
  | guessed
  /-- As the start of a regular expression. -/
  | regex
  /-- As a division. -/
  | division
deriving DecidableEq, Repr, Inhabited

/-- What an open brace belongs to. -/
inductive Brace where
  | block
  /-- A substitution inside a template literal. -/
  | substitution
deriving DecidableEq, Repr, Inhabited

/-- Whether a slash after the given token, if there is one, begins a regular expression. -/
abbrev SlashGuess := Option (TokenKind × String) → Bool

namespace SlashGuess

/-- Words that an operand follows. -/
def operandWords : List String := [
  "return", "typeof", "instanceof", "in", "of", "new", "delete", "void", "throw", "case", "do",
  "else", "yield", "await", "extends"
]

/-- A slash begins a regular expression at the start, after most punctuators, after the words
that an operand follows, and at the start of a substitution. -/
def standard : SlashGuess
  | none => true
  | some (.punctuator, text) => !([")", "]", "++", "--"].contains text)
  | some (.identifier, text) => operandWords.contains text
  | some (.templateHead, _) | some (.templateMiddle, _) => true
  | some _ => false

end SlashGuess

/-- A position in a source, with what the reading of the next token depends on. -/
structure Scanner where
  /-- The text that is still to be read. -/
  rest : List Char
  /-- The number of bytes read. -/
  offset : Nat
  /-- The open braces, the innermost first. -/
  braces : List Brace
  /-- A line terminator was read since the last significant token. -/
  newlineBefore : Bool
  /-- The last significant token. -/
  previous : Option (TokenKind × String)
  /-- How a slash in doubt is read. -/
  guess : SlashGuess

namespace Scanner

/-- A scanner at the start of a source. -/
def ofText (guess : SlashGuess) (text : List Char) : Scanner :=
  { rest := text, offset := 0, braces := [], newlineBefore := false, previous := none, guess }

/-- A scanner after some more characters. -/
def advance (scanner : Scanner) (count : Nat) : Scanner :=
  { scanner with
    rest := scanner.rest.drop count
    offset := scanner.offset + Text.byteLength (scanner.rest.take count) }

/-- A scanner after the blank characters before it, which may include line terminators. -/
def skipBlank (scanner : Scanner) : Scanner :=
  let count := Text.lengthWhile Text.isBlank scanner.rest
  let blanks := scanner.rest.take count
  { scanner.advance count with
    newlineBefore := scanner.newlineBefore || blanks.any Text.isLineTerminator }

/-- What stands at the front of a text: a token of some kind or a fault, the number of
characters that were read, and the braces that are open before it. -/
structure Reading where
  outcome : Except SyntaxError TokenKind
  length : Nat
  braces : List Brace

/-- Whether a slash begins a regular expression. -/
def slashIsRegex (scanner : Scanner) : SlashReading → Bool
  | .regex => true
  | .division => false
  | .guessed => scanner.guess scanner.previous

/-- A division operator, with or without assignment; `rest` follows the slash. -/
def readDivision (scanner : Scanner) (rest : List Char) : Reading :=
  ⟨.ok .punctuator, if rest.head? == some '=' then 2 else 1, scanner.braces⟩

/-- A slash that begins no comment; `rest` follows it.
A guess that cannot be a regular expression is a division. -/
def readSlash (scanner : Scanner) (reading : SlashReading) (rest : List Char) : Reading :=
  if scanner.slashIsRegex reading then
    let reach := Lexeme.regexReach false rest
    if reach.closed then
      ⟨.ok .regex, 1 + reach.length, scanner.braces⟩
    else if reading == .regex then
      ⟨.error (.unterminatedRegex scanner.offset), 1 + reach.length, scanner.braces⟩
    else
      scanner.readDivision rest
  else
    scanner.readDivision rest

/-- A piece of a template, after the backtick or brace in front of `rest`. -/
def readTemplate (scanner : Scanner) (rest : List Char) (braces : List Brace)
    (whole part : TokenKind) : Reading :=
  let reach := Lexeme.templateReach rest
  let outcome :=
    match reach.stop with
    | .backtick => .ok whole
    | .substitution => .ok part
    | .missing => .error (.unterminatedTemplate scanner.offset)
  ⟨outcome, 1 + reach.length, braces⟩

/-- A token that leaves the open braces to be told from its text. -/
def readPlain (scanner : Scanner) (kind : TokenKind) (length : Nat) : Reading :=
  ⟨.ok kind, length, scanner.braces⟩

/-- A block comment; `rest` follows its opening delimiter. -/
def readComment (scanner : Scanner) (rest : List Char) : Reading :=
  let reach := Lexeme.commentReach rest
  if reach.closed then
    scanner.readPlain .blockComment (2 + reach.length)
  else
    ⟨.error (.unterminatedComment scanner.offset), 0, scanner.braces⟩

/-- A string literal; `rest` follows its first quote. -/
def readString (scanner : Scanner) (quote : Char) (rest : List Char) : Reading :=
  let reach := Lexeme.stringReach quote rest
  if reach.closed then
    scanner.readPlain .string (1 + reach.length)
  else
    ⟨.error (.unterminatedString scanner.offset), 1 + reach.length, scanner.braces⟩

/-- An identifier name or a punctuator, from its first character. -/
def readWord (scanner : Scanner) (first : Char) : Reading :=
  if Text.isIdentifierStart first || first == '\\' then
    scanner.readPlain .identifier (Lexeme.nameLength false scanner.rest)
  else
    match Lexeme.punctuatorLength? scanner.rest with
    | some length => scanner.readPlain .punctuator length
    | none => ⟨.error (.unexpectedCharacter first scanner.offset), 0, scanner.braces⟩

/-- What stands at a scanner that is not at a blank; nothing at the end of the source. -/
def read? (scanner : Scanner) (reading : SlashReading) : Option Reading :=
  match scanner.rest with
  | [] => none
  | '/' :: '/' :: rest => some (scanner.readPlain .lineComment (2 + Lexeme.lineLength rest))
  | '/' :: '*' :: rest => some (scanner.readComment rest)
  | '/' :: rest => some (scanner.readSlash reading rest)
  | '#' :: c :: rest =>
      if c == '!' && scanner.offset == 0 then
        some (scanner.readPlain .lineComment (2 + Lexeme.lineLength rest))
      else if Text.isIdentifierStart c || c == '\\' then
        some (scanner.readPlain .privateName (1 + Lexeme.nameLength false (c :: rest)))
      else
        some (scanner.readWord '#')
  | '\x60' :: rest => some (scanner.readTemplate rest scanner.braces .template .templateHead)
  | '}' :: rest =>
      match scanner.braces with
      | .substitution :: outer =>
          some (scanner.readTemplate rest outer .templateTail .templateMiddle)
      | _ => some (scanner.readWord '}')
  | '.' :: c :: _ =>
      if c.isDigit then
        some (scanner.readPlain .number (Lexeme.numberLength scanner.rest))
      else
        some (scanner.readWord '.')
  | c :: rest =>
      if c == '\'' || c == '\x22' then
        some (scanner.readString c rest)
      else if c.isDigit then
        some (scanner.readPlain .number (Lexeme.numberLength scanner.rest))
      else
        some (scanner.readWord c)

/-- The open braces after a token. -/
def bracesAfter (braces : List Brace) (kind : TokenKind) (text : String) : List Brace :=
  match kind with
  | .templateHead | .templateMiddle => .substitution :: braces
  | .punctuator =>
      if text == "\x7b" then .block :: braces else if text == "\x7d" then braces.drop 1 else braces
  | _ => braces

/-- A scanner after a token of the given kind with the given characters. -/
def after (scanner : Scanner) (kind : TokenKind) (chars : List Char) : Scanner :=
  if kind.isComment then
    { scanner with
      newlineBefore := scanner.newlineBefore ||
        (kind == .blockComment && chars.any Text.isLineTerminator) }
  else
    let text := String.ofList chars
    { scanner with
      newlineBefore := false
      previous := some (kind, text)
      braces := bracesAfter scanner.braces kind text }

/-- The next token, nothing at the end of the source, or the fault that is met,
and the scanner from which reading can go on. -/
def next (scanner : Scanner) (reading : SlashReading)
    : Except SyntaxError (Option Token) × Scanner :=
  let here := scanner.skipBlank
  match here.read? reading with
  | none => (.ok none, here)
  | some front =>
      let chars := here.rest.take front.length
      let there := { here.advance front.length with braces := front.braces }
      match front.outcome with
      | .error fault => (.error fault, there)
      | .ok kind =>
          let token : Token := {
            kind
            span := ⟨here.offset, there.offset⟩
            text := String.ofList chars
            newlineBefore := here.newlineBefore }
          (.ok (some token), there.after kind chars)

end Scanner

end ScriptStyle
