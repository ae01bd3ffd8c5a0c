import ScriptStyle.Proofs.Scanner.Newlines

/-!
Where errors show in a source. Each has an offset between two characters, and what stands there
is what the error is about.
-/

namespace ScriptStyle

variable {source : String} {scanner : Scanner} {reading : SlashReading} {tokens : List Token}
  {error : SyntaxError} {rest : List Char}

-----------------------------------------------------------------------------------------
-- What errors are about
-----------------------------------------------------------------------------------------

/-- A scanner of a source reaches a text across some tokens, with nothing but blanks in front
of it. -/
def Scanner.Reaches (source : String) (scanner : Scanner) (rest : List Char) : Prop :=
  ∃ tokens, Trail (.ofSource source) tokens scanner ∧ scanner.skipBlank.rest = rest

/-- What stands between two parts of a source, at the front of the second. -/
def SyntaxError.Describes (source : String) (front rest : List Char) : SyntaxError → Prop
  | unterminatedString _ =>
      ∃ (quote : Char) (after : List Char), rest = quote :: after
        ∧ (quote = '\'' ∨ quote = '\x22')
  -- A later piece of a template begins where a substitution is open.
  | unterminatedTemplate _ =>
      ∃ (opening : Char) (after : List Char), rest = opening :: after
        ∧ (opening = '\x60' ∨ opening = '\x7d'
          ∧ ∃ (scanner : Scanner) (outer : List Brace), scanner.Reaches source rest
              ∧ scanner.braces = .substitution :: outer)
  | unterminatedComment _ => ∃ after, rest = '/' :: '*' :: after
  | unterminatedRegex _ => ∃ after, rest = '/' :: after
  | unexpectedCharacter found _ => ∃ after, rest = found :: after
  -- The scanner reads a token there, and that is all its text.
  | unexpectedToken found _ _ =>
      ∃ (scanner : Scanner) (reading : SlashReading) (token : Token) (after : Scanner),
        scanner.Reaches source rest ∧ scanner.next reading = (.ok (some token), after)
          ∧ token.isSignificant ∧ token.text = found
          ∧ token.span.start = Text.byteLength front ∧ found ≠ "" ∧ found.toList <+: rest
  | unexpectedEnd _ _ => rest = []
  | nestingTooDeep _ => True
  | sourceTooLarge => False

/-- An error shows at an offset of a source that lies between two characters or at an end, and is
about what stands there. -/
def SyntaxError.PointsInto (source : String) (error : SyntaxError) : Prop :=
  ∃ front rest, source.toList = front ++ rest ∧ error.offset? = some (Text.byteLength front)
    ∧ error.Describes source front rest

-----------------------------------------------------------------------------------------
-- Faults of the scanner
-----------------------------------------------------------------------------------------

/-- What a trail over a source takes, and the blanks behind it, are the front of the source. -/
theorem Trail.exists_front (trail : Trail (.ofSource source) tokens scanner)
    : ∃ front, source.toList = front ++ scanner.skipBlank.rest
        ∧ scanner.skipBlank.offset = Text.byteLength front := by
  obtain ⟨taken, split, offset⟩ := trail.taken
  refine ⟨taken ++ scanner.rest.takeWhile Text.isBlank, ?_, ?_⟩
  · rw [Scanner.skipBlank_rest, List.append_assoc, List.takeWhile_append_dropWhile, ← split]
    rfl
  · have begins : (Scanner.ofSource source).offset = 0 := rfl
    rw [Scanner.skipBlank_offset, Text.byteLength_append, offset, begins, Nat.zero_add]

namespace Scanner

/-- A word that cannot be read begins with a character that begins no token. -/
theorem error_of_readWord {first : Char} (failed : (scanner.readWord first).outcome = .error error)
    : error = .unexpectedCharacter first scanner.offset := by
  simp only [readWord, readPlain] at failed
  split at failed
  · cases failed
  · split at failed <;> cases failed
    rfl

/-- A piece of a template fails only where it does not end. -/
theorem error_of_readTemplate {braces : List Brace} {whole part : TokenKind}
    (failed : (scanner.readTemplate rest braces whole part).outcome = .error error)
    : error = .unterminatedTemplate scanner.offset := by
  simp only [readTemplate] at failed
  split at failed <;> cases failed
  rfl

/-- Where the scanner meets a fault stands what the fault is about. -/
theorem describes_of_read? {front : List Char} {found : Reading}
    (read : scanner.read? reading = some found) (outcome : found.outcome = .error error)
    (resumes : ∀ outer, scanner.braces = .substitution :: outer →
      ∃ (before : Scanner) (outer : List Brace), before.Reaches source scanner.rest
        ∧ before.braces = .substitution :: outer)
    : error.Describes source front scanner.rest := by
  revert read resumes
  fun_cases read? scanner reading <;> intro read resumes
  case case1 => cases read
  all_goals obtain rfl := Option.some.inj read
  case case2 | case5 | case6 | case11 | case14 => cases outcome
  case case3 rest text =>
    simp only [readComment, readPlain] at outcome
    split at outcome <;> cases outcome
    exact ⟨rest, text⟩
  case case4 rest _ _ text =>
    simp only [readSlash, readDivision] at outcome
    split_ifs at outcome
    all_goals cases outcome
    exact ⟨rest, text⟩
  case case7 text _ _ | case15 text _ _ =>
    rw [error_of_readWord outcome]
    exact ⟨_, text⟩
  case case10 text _ | case12 text _ =>
    rw [error_of_readWord outcome]
    exact ⟨_, text⟩
  case case8 text =>
    rw [error_of_readTemplate outcome]
    exact ⟨_, _, text, .inl rfl⟩
  case case9 text outer opened =>
    rw [error_of_readTemplate outcome]
    exact ⟨_, _, text, .inr ⟨rfl, resumes outer opened⟩⟩
  case case13 quote rest _ _ _ _ _ _ _ text isQuote =>
    simp only [readString, readPlain] at outcome
    split at outcome <;> cases outcome
    exact ⟨quote, rest, text, by simpa using isQuote⟩

end Scanner

/-- A fault that is met at the end of a trail points into the source. -/
theorem Trail.pointsInto (trail : Trail (.ofSource source) tokens scanner)
    (fails : (scanner.next reading).1 = .error error)
    : error.PointsInto source := by
  obtain ⟨front, split, offset⟩ := trail.exists_front
  refine ⟨front, _, split, by rw [Scanner.offset_of_next_error fails, offset], ?_⟩
  simp only [Scanner.next] at fails
  cases read : scanner.skipBlank.read? reading with
  | none => simp [read] at fails
  | some found =>
      simp only [read] at fails
      cases outcome : found.outcome with
      | ok kind => simp [outcome] at fails
      | error fault =>
          simp only [outcome, Except.error.injEq] at fails
          subst fails
          exact Scanner.describes_of_read? read outcome fun outer opened =>
            ⟨scanner, outer, ⟨tokens, trail, rfl⟩, opened⟩

/-- A token that is read at the end of a trail is what an error names that is about it. -/
theorem Trail.pointsInto_unexpectedToken {token : Token} {after : Scanner} (expected : String)
    (trail : Trail (.ofSource source) tokens scanner)
    (read : scanner.next reading = (.ok (some token), after)) (significant : token.isSignificant)
    : (SyntaxError.unexpectedToken token.text token.span.start expected).PointsInto source := by
  obtain ⟨front, split, offset⟩ := trail.exists_front
  have start := (Scanner.start_of_next read).trans offset
  have text := Scanner.rest_of_next read
  obtain ⟨-, -, -, nonempty, -⟩ := Scanner.next_splits read
  refine ⟨front, _, split, by rw [SyntaxError.offset?, start], scanner, reading, token, after,
    ⟨tokens, trail, rfl⟩, read, significant, rfl, start, ?_, ?_⟩
  · intro empty
    exact nonempty (by rw [empty]; rfl)
  · rw [Scanner.skipBlank_rest, text]
    exact List.prefix_append ..

/-- A list of tokens that was cut short says by what, and where in the source. -/
theorem TokenList.pointsInto_of_scan (trail : Trail (.ofSource source) tokens scanner)
    (fault : (TokenList.scan scanner reading).fault = some error)
    : error.PointsInto source := by
  obtain ⟨stop, chain, stops⟩ := TokenList.scan_runsFrom scanner reading
  rw [fault] at stops
  cases stops with
  | failed again fails => exact (trail.append chain.trail).pointsInto fails

end ScriptStyle
