import ScriptStyle.Proofs.Literal.Body
import ScriptStyle.Proofs.Text.Slices
import ScriptStyle.TokenList

/-!
What the scanner reads at the front of a text: the spelling of each kind of literal,
and the token that is made of it.
-/

namespace ScriptStyle

/-- The kind of the tokens that are literals in quotes of a style. -/
def QuoteStyle.tokenKind : QuoteStyle → TokenKind
  | .single | .double => .string
  | .backtick => .template

/-- A literal as it is written in quotes of a style. -/
def QuoteStyle.enclose (style : QuoteStyle) (body : List Char) : List Char :=
  style.quote :: (body ++ [style.quote])

namespace Scanner

open ScriptStyle.Literal

variable {scanner : Scanner} {reading : SlashReading}

-----------------------------------------------------------------------------------------
-- Blanks
-----------------------------------------------------------------------------------------

/-- Skipping blanks leaves a text that begins with none. -/
theorem skipBlank_rest (scanner : Scanner)
    : scanner.skipBlank.rest = scanner.rest.dropWhile Text.isBlank :=
  Text.drop_lengthWhile Text.isBlank scanner.rest

/-- A scanner before a character that is not blank skips nothing. -/
theorem skipBlank_eq_self {c : Char} {rest : List Char} (text : scanner.rest = c :: rest)
    (visible : Text.isBlank c = false)
    : scanner.skipBlank = scanner := by
  cases scanner
  simp_all [skipBlank, Text.lengthWhile, Scanner.advance]

-----------------------------------------------------------------------------------------
-- The kinds that each reader finds
-----------------------------------------------------------------------------------------

section Kinds

variable {rest : List Char} {kind : TokenKind}

/-- Only a block comment is read as one. -/
theorem kind_of_readComment (read : (scanner.readComment rest).outcome = .ok kind)
    : kind = .blockComment := by
  simp only [readComment, readPlain] at read
  split at read <;> cases read
  rfl

/-- A slash that begins no comment is read as a regular expression or an operator. -/
theorem kind_of_readSlash (read : (scanner.readSlash reading rest).outcome = .ok kind)
    : kind = .regex ∨ kind = .punctuator := by
  simp only [readSlash, readDivision] at read
  repeat' split at read
  all_goals simp_all

/-- A closed string is read as one. -/
theorem kind_of_readString {quote : Char}
    (read : (scanner.readString quote rest).outcome = .ok kind)
    : kind = .string ∧ (Lexeme.stringReach quote rest).closed := by
  simp only [readString, readPlain] at read
  split at read
  · next closed =>
      cases read
      exact ⟨rfl, closed⟩
  · cases read

/-- Without the signs of other tokens an identifier or a punctuator is read. -/
theorem kind_of_readWord {first : Char} (read : (scanner.readWord first).outcome = .ok kind)
    : kind = .identifier ∨ kind = .punctuator := by
  simp only [readWord, readPlain] at read
  split at read
  · exact .inl (Except.ok.inj read).symm
  · split at read
    · exact .inr (Except.ok.inj read).symm
    · cases read

/-- The kind of a piece of a template tells how it stops. -/
theorem kind_of_readTemplate {braces : List Brace} {whole part : TokenKind}
    (read : (scanner.readTemplate rest braces whole part).outcome = .ok kind)
    : (kind = whole ∧ (Lexeme.templateReach rest).stop = .backtick)
      ∨ (kind = part ∧ (Lexeme.templateReach rest).stop = .substitution) := by
  simp only [readTemplate] at read
  split at read
  · next stop => exact .inl ⟨(Except.ok.inj read).symm, stop⟩
  · next stop => exact .inr ⟨(Except.ok.inj read).symm, stop⟩
  · cases read

end Kinds

-----------------------------------------------------------------------------------------
-- Literals
-----------------------------------------------------------------------------------------

/-- At a quote the scanner reads a literal in the style of that quote. -/
theorem read?_quote {style : QuoteStyle} {rest : List Char}
    (text : scanner.rest = style.quote :: rest) (closed : (literalReach style rest).closed)
    : scanner.read? reading
      = some (scanner.readPlain style.tokenKind (1 + (literalReach style rest).length)) := by
  cases style with
  | single | double =>
      simp_all [read?, QuoteStyle.quote, literalReach, readString, QuoteStyle.tokenKind]
  | backtick =>
      simp_all [read?, QuoteStyle.quote, literalReach, readTemplate, readPlain,
        QuoteStyle.tokenKind]

/-- What is read as a literal without substitutions begins with a quote of its style, and the
scanner has found the closing one. -/
theorem literal_of_read? {front : Reading} {kind : TokenKind}
    (read : scanner.read? reading = some front) (outcome : front.outcome = .ok kind)
    (isLiteral : kind = .string ∨ kind = .template)
    : ∃ style rest, scanner.rest = style.quote :: rest ∧ (literalReach style rest).closed
        ∧ kind = style.tokenKind
        ∧ front = scanner.readPlain kind (1 + (literalReach style rest).length) := by
  have atQuote (style : QuoteStyle) {rest : List Char} (text : scanner.rest = style.quote :: rest)
      (closed : (literalReach style rest).closed)
      : ∃ style rest, scanner.rest = style.quote :: rest ∧ (literalReach style rest).closed
          ∧ kind = style.tokenKind
          ∧ front = scanner.readPlain kind (1 + (literalReach style rest).length) := by
    obtain rfl := Option.some.inj (read.symm.trans (read?_quote text closed))
    exact ⟨style, rest, text, closed, (Except.ok.inj outcome).symm,
      by rw [Except.ok.inj outcome]⟩
  have notLiteral {other : TokenKind} (same : kind = other) (isOther : ¬(other = .string ∨ other = .template))
      : False := isOther (same ▸ isLiteral)
  have notWord {first : Char} (same : scanner.readWord first = front) : False := by
    rcases kind_of_readWord (same ▸ outcome) with identifier | punctuator
    · exact notLiteral identifier (by decide)
    · exact notLiteral punctuator (by decide)
  have notPlain {other : TokenKind} {length : Nat} (same : scanner.readPlain other length = front)
      (isOther : ¬(other = .string ∨ other = .template)) : False :=
    notLiteral (Except.ok.inj (outcome.symm.trans (same ▸ rfl))) isOther
  revert read
  fun_cases read? scanner reading <;> intro read
  case case1 => cases read
  case case2 | case5 | case6 | case11 | case14 =>
    exact (notPlain (Option.some.inj read) (by decide)).elim
  case case3 =>
    obtain rfl := Option.some.inj read
    exact (notLiteral (kind_of_readComment outcome) (by decide)).elim
  case case4 =>
    obtain rfl := Option.some.inj read
    rcases kind_of_readSlash outcome with regex | punctuator
    · exact (notLiteral regex (by decide)).elim
    · exact (notLiteral punctuator (by decide)).elim
  case case7 | case10 | case12 | case15 => exact (notWord (Option.some.inj read)).elim
  case case8 rest text =>
    obtain rfl := Option.some.inj read
    rcases kind_of_readTemplate outcome with ⟨whole, stop⟩ | ⟨part, -⟩
    · exact atQuote .backtick text (by simp [literalReach, stop])
    · exact (notLiteral part (by decide)).elim
  case case9 =>
    obtain rfl := Option.some.inj read
    rcases kind_of_readTemplate outcome with ⟨whole, -⟩ | ⟨part, -⟩
    · exact (notLiteral whole (by decide)).elim
    · exact (notLiteral part (by decide)).elim
  case case13 c rest _ _ _ _ _ _ _ text isQuote =>
    obtain rfl := Option.some.inj read
    obtain ⟨-, closed⟩ := kind_of_readString outcome
    rcases Bool.or_eq_true_iff.mp isQuote with single | double
    · obtain rfl := eq_of_beq single
      exact atQuote .single text closed
    · obtain rfl := eq_of_beq double
      exact atQuote .double text closed

-----------------------------------------------------------------------------------------
-- Tokens
-----------------------------------------------------------------------------------------

/-- The token of the given kind that takes some characters from where a scanner stands. -/
def tokenAt (scanner : Scanner) (kind : TokenKind) (length : Nat) : Token where
  kind := kind
  span := ⟨scanner.offset, scanner.offset + Text.byteLength (scanner.rest.take length)⟩
  text := String.ofList (scanner.rest.take length)
  newlineBefore := scanner.newlineBefore

/-- The scanner behind the token that a reading finds. -/
def behind (scanner : Scanner) (kind : TokenKind) (front : Reading) : Scanner :=
  { scanner.advance front.length with braces := front.braces }.after kind
    (scanner.rest.take front.length)

/-- The scanner behind a token has the rest of the text before it. -/
@[simp] theorem behind_rest (scanner : Scanner) (kind : TokenKind) (front : Reading)
    : (scanner.behind kind front).rest = scanner.rest.drop front.length := by
  simp only [behind, after, advance]
  split <;> rfl

/-- A token is what is read behind the blanks. -/
theorem next_eq_token {token : Token} {after : Scanner}
    : scanner.next reading = (.ok (some token), after)
      ↔ ∃ front kind, scanner.skipBlank.read? reading = some front ∧ front.outcome = .ok kind
          ∧ token = scanner.skipBlank.tokenAt kind front.length
          ∧ after = scanner.skipBlank.behind kind front := by
  simp only [next]
  cases read : scanner.skipBlank.read? reading with
  | none => simp
  | some front =>
      cases outcome : front.outcome with
      | error fault => simp [outcome]
      | ok kind =>
          simp only [outcome, Prod.mk.injEq, Except.ok.injEq, Option.some.injEq]
          constructor
          · rintro ⟨rfl, rfl⟩
            exact ⟨front, kind, rfl, outcome, rfl, rfl⟩
          · rintro ⟨_, _, rfl, same, rfl, rfl⟩
            obtain rfl := Except.ok.inj (outcome.symm.trans same)
            exact ⟨rfl, rfl⟩

/-- At the end of the source no token is read. -/
theorem next_of_nil (ended : scanner.rest = [])
    : scanner.next reading = (.ok none, scanner.skipBlank) := by
  have ended' : scanner.skipBlank.rest = [] := by
    rw [skipBlank_rest, ended, List.dropWhile_nil]
  simp only [next, read?, ended']

/-- The text of a literal token is a body in the quotes of its style. -/
theorem literal_of_next {token : Token} {after : Scanner}
    (read : scanner.next reading = (.ok (some token), after))
    (isLiteral : token.kind = .string ∨ token.kind = .template)
    : ∃ style body, token.text.toList = style.enclose body ∧ isBody style body
        ∧ token.kind = style.tokenKind := by
  obtain ⟨front, kind, reads, outcome, rfl, rfl⟩ := next_eq_token.mp read
  obtain ⟨style, rest, text, closed, rfl, rfl⟩ := literal_of_read? reads outcome isLiteral
  obtain ⟨body, others, rfl, goesOn⟩ := isBody_of_closed closed
  refine ⟨style, body, ?_, goesOn, rfl⟩
  have split : style.quote :: (body ++ style.quote :: others) = style.enclose body ++ others := by
    simp [QuoteStyle.enclose]
  have counted
      : (scanner.skipBlank.readPlain style.tokenKind
          (1 + (literalReach style (body ++ style.quote :: others)).length)).length
        = (style.enclose body).length := by
    simp [readPlain, literalReach_of_isBody goesOn, QuoteStyle.enclose, Nat.add_comm]
  rw [tokenAt, String.toList_ofList, counted, text, split, List.take_left]

/-- A scanner before a literal and nothing else reads the literal as its only token. -/
theorem scan_enclose {style : QuoteStyle} {body : List Char} (goesOn : isBody style body)
    (text : scanner.rest = style.enclose body)
    : TokenList.scan scanner reading
      = ⟨[⟨scanner.tokenAt style.tokenKind (style.enclose body).length, scanner⟩], none⟩ := by
  have visible : Text.isBlank style.quote = false := by cases style <;> decide
  have start : scanner.skipBlank = scanner := skipBlank_eq_self text visible
  have reach := literalReach_of_isBody goesOn []
  have counted : 1 + (body.length + 1) = (style.enclose body).length := by
    simp [QuoteStyle.enclose, Nat.add_comm]
  have read
      : scanner.skipBlank.read? reading
        = some (scanner.readPlain style.tokenKind (style.enclose body).length) := by
    rw [start, read?_quote text (by rw [reach]), reach, counted]
  have first := next_eq_token.mpr ⟨_, _, read, rfl, rfl, rfl⟩
  rw [start] at first
  have ended : (scanner.behind style.tokenKind
      (scanner.readPlain style.tokenKind (style.enclose body).length)).rest = [] := by
    rw [behind_rest, text]
    exact List.drop_length
  obtain ⟨more, length⟩ : ∃ more, scanner.rest.length = more + 1 :=
    ⟨body.length + 1, by simp [text, QuoteStyle.enclose]⟩
  rw [TokenList.scan, length]
  simp only [TokenList.scanUpTo, first, next_of_nil ended]
  rfl

/-- The only token of a source that is a literal and nothing else spans the whole source. -/
theorem tokens_enclose {style : QuoteStyle} {body : List Char} {source : String}
    (goesOn : isBody style body) (written : source = String.ofList (style.enclose body))
    (guess : SlashGuess)
    : (TokenList.scan (ofText guess source.toList) .guessed).fault = none
      ∧ (TokenList.scan (ofText guess source.toList) .guessed).tokens
        = [⟨style.tokenKind, ⟨0, source.utf8ByteSize⟩, source, false⟩] := by
  subst written
  rw [scan_enclose goesOn (String.toList_ofList : _ = style.enclose body)]
  simp [TokenList.tokens, tokenAt, ofText, Text.utf8ByteSize_ofList]

/-- A source that is a literal and nothing else is one token, up to the size that sources have. -/
theorem tokenize_enclose {style : QuoteStyle} {body : List Char} {source : String}
    (goesOn : isBody style body) (written : source = String.ofList (style.enclose body))
    : tokenize source
      = if source.utf8ByteSize > TokenList.maxSourceLength then
          .error .sourceTooLarge
        else
          .ok [⟨style.tokenKind, ⟨0, source.utf8ByteSize⟩, source, false⟩] := by
  obtain ⟨complete, single⟩ := tokens_enclose goesOn written SlashGuess.standard
  simp only [tokenize, TokenList.ofSource, TokenList.ofSourceWith]
  split
  · rfl
  · simp only [bind, Except.bind, complete, single]

end Scanner

end ScriptStyle
