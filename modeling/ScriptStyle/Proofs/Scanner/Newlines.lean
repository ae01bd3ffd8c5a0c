import Mathlib.Data.List.Induction
import ScriptStyle.Proofs.Scanner.Tiling
import ScriptStyle.Proofs.Text.LineStarts

/-!
Which tokens begin a line. The scanner notes of each token whether a line terminator was read since
the last significant token, in blanks or in comments; the lines of the source tell the same of any
two significant tokens that follow one another.
-/

namespace ScriptStyle

open ScriptStyle.Text

-----------------------------------------------------------------------------------------
-- One token
-----------------------------------------------------------------------------------------

namespace Scanner

variable {scanner after : Scanner} {reading : SlashReading} {token : Token}

theorem skipBlank_newlineBefore (scanner : Scanner)
    : scanner.skipBlank.newlineBefore
      = (scanner.newlineBefore || (scanner.rest.takeWhile isBlank).any isLineTerminator) := by
  rw [← take_lengthWhile]
  rfl

theorem unbroken_of_lineLength (opening text : List Char)
    (unbroken : opening.any isLineTerminator = false)
    : ((opening ++ text).take (opening.length + Lexeme.lineLength text)).any isLineTerminator
      = false := by
  rw [List.take_length_add_append, Lexeme.lineLength, take_lengthWhile, List.any_append, unbroken,
    Bool.false_or, List.any_eq_false]
  intro c member
  simpa using List.mem_takeWhile_imp member

/-- A comment that ends with its line holds no terminator. -/
theorem unbroken_of_lineComment {front : Reading} (read : scanner.read? reading = some front)
    (outcome : front.outcome = .ok .lineComment)
    : (scanner.rest.take front.length).any isLineTerminator = false := by
  revert read
  fun_cases read? scanner reading <;> intro read
  case case1 => cases read
  all_goals obtain rfl := Option.some.inj read
  case case2 rest text =>
    rw [text]
    exact unbroken_of_lineLength ['/', '/'] rest rfl
  case case5 c rest text bang =>
    rw [Bool.and_eq_true] at bang
    obtain rfl := eq_of_beq bang.1
    rw [text]
    exact unbroken_of_lineLength ['#', '!'] rest rfl
  case case3 => cases kind_of_readComment outcome
  case case4 => rcases kind_of_readSlash outcome with slash | slash <;> cases slash
  case case6 | case11 | case14 => cases outcome
  case case7 | case10 | case12 | case15 =>
    rcases kind_of_readWord outcome with word | word <;> cases word
  case case8 | case9 =>
    rcases kind_of_readTemplate outcome with ⟨piece, -⟩ | ⟨piece, -⟩ <;> cases piece
  case case13 => cases (kind_of_readString outcome).1

/-- A token is what follows the blanks in front of it. -/
theorem rest_of_next (read : scanner.next reading = (.ok (some token), after))
    : scanner.rest.dropWhile isBlank = token.text.toList ++ after.rest := by
  obtain ⟨front, kind, -, -, rfl, rfl⟩ := next_eq_token.mp read
  rw [behind_rest, tokenAt, String.toList_ofList, List.take_append_drop, skipBlank_rest]

/-- No token begins with a line terminator. -/
theorem head?_of_next (read : scanner.next reading = (.ok (some token), after))
    : (token.text.toList ++ after.rest).head? ≠ some '\n' := by
  intro begins
  have visible := List.head?_dropWhile_not isBlank scanner.rest
  rw [rest_of_next read, begins] at visible
  exact Bool.noConfusion visible

/-- A comment keeps what was noted before it and adds its own terminators; behind any other token
noting begins anew. -/
theorem newlineBefore_after_next (read : scanner.next reading = (.ok (some token), after))
    : after.newlineBefore
      = (!token.isSignificant
          && (token.newlineBefore || token.text.toList.any isLineTerminator)) := by
  obtain ⟨front, kind, reads, outcome, rfl, rfl⟩ := next_eq_token.mp read
  cases kind with
  | lineComment =>
      have unbroken := unbroken_of_lineComment reads outcome
      simp [behind, Scanner.after, advance, tokenAt, Token.isSignificant, TokenKind.isComment,
        unbroken]
  | blockComment =>
      simp [behind, Scanner.after, advance, tokenAt, Token.isSignificant, TokenKind.isComment]
  | _ => rfl

end Scanner

-----------------------------------------------------------------------------------------
-- Runs of tokens
-----------------------------------------------------------------------------------------

/-- What is noted at an offset of a text, behind some tokens and in front of the rest: whether a
line terminator stands between the end of the last significant token and that offset. -/
def Noted (text : List Char) (tokens : List Token) (rest : List Char) (offset : Nat)
    (newline : Bool) : Prop :=
  ∃ front gap, text = front ++ (gap ++ rest)
    ∧ byteLength front = stopOf (tokens.filter Token.isSignificant)
    ∧ byteLength (front ++ gap) = offset
    ∧ newline = gap.any isLineTerminator

namespace Noted

variable {text rest : List Char} {tokens : List Token} {token : Token} {scanner after : Scanner}
  {reading : SlashReading} {offset : Nat} {newline : Bool}

/-- What a scanner has noted is noted of its next token, with the blanks in front of that. -/
theorem ahead (noted : Noted text tokens scanner.rest scanner.offset scanner.newlineBefore)
    (read : scanner.next reading = (.ok (some token), after))
    : Noted text tokens (token.text.toList ++ after.rest) token.span.start token.newlineBefore := by
  obtain ⟨front, gap, whole, start, reach, flag⟩ := noted
  refine ⟨front, gap ++ scanner.rest.takeWhile isBlank, ?_, start, ?_, ?_⟩
  · rw [← Scanner.rest_of_next read, List.append_assoc, List.takeWhile_append_dropWhile, whole]
  · rw [← List.append_assoc, byteLength_append, reach, Scanner.start_of_next read,
      Scanner.skipBlank_offset]
  · rw [Scanner.newline_of_next read, Scanner.skipBlank_newlineBefore, flag, List.any_append]

/-- A significant token ends the stretch that is noted, and a comment adds to it. -/
theorem behind (noted : Noted text tokens scanner.rest scanner.offset scanner.newlineBefore)
    (read : scanner.next reading = (.ok (some token), after))
    : Noted text (tokens ++ [token]) after.rest after.offset after.newlineBefore := by
  obtain ⟨front, gap, whole, start, reach, flag⟩ := noted.ahead read
  obtain ⟨-, -, -, -, -, closes, offset, -⟩ := Scanner.next_splits read
  have stop : byteLength (front ++ gap ++ token.text.toList) = after.offset := by
    rw [byteLength_append, reach, offset, closes]
  rw [Noted, Scanner.newlineBefore_after_next read, List.filter_append]
  cases significant : token.isSignificant with
  | true =>
      refine ⟨front ++ gap ++ token.text.toList, [], by simp [whole], ?_, by simpa using stop, rfl⟩
      rw [List.filter_cons_of_pos significant, List.filter_nil, stopOf_concat, ← offset, stop]
  | false =>
      have comment : [token].filter Token.isSignificant = [] := by simp [significant]
      refine ⟨front, gap ++ token.text.toList, by simp [whole], ?_, by simpa using stop, ?_⟩
      · rw [comment, List.append_nil, start]
      · rw [List.any_append, flag]
        rfl

/-- What is noted is whether the offset lies in another line than the end of the last significant
token, unless it is between the halves of a CR LF pair. -/
theorem sameLine (noted : Noted text tokens rest offset newline) (unpaired : rest.head? ≠ some '\n')
    : (LineIndex.ofText text).sameLine (stopOf (tokens.filter Token.isSignificant)) offset
      = !newline := by
  obtain ⟨front, gap, rfl, start, rfl, rfl⟩ := noted
  rw [← start]
  cases broken : gap.any isLineTerminator with
  | true => exact LineIndex.not_sameLine_of_broken broken unpaired
  | false => exact LineIndex.sameLine_of_unbroken broken

end Noted

namespace Trail

variable {origin stop : Scanner} {tokens before after : List Token} {token : Token}

/-- A run of tokens notes line terminators. Witness: induction on the tokens, from the last. -/
theorem noted (trail : Trail origin tokens stop) (begins : origin.offset = 0)
    (fresh : origin.newlineBefore = false)
    : Noted origin.rest tokens stop.rest stop.offset stop.newlineBefore := by
  induction tokens using List.reverseRecOn generalizing stop with
  | nil =>
      cases trail
      exact ⟨[], [], rfl, rfl, begins.symm, fresh⟩
  | append_singleton tokens token ih =>
      obtain ⟨middle, reading, leads, read⟩ := trail.of_concat
      exact (ih leads).behind read

/-- The flag of a token of a run, and the text from that token on. -/
theorem noted_at (trail : Trail origin (before ++ token :: after) stop) (begins : origin.offset = 0)
    (fresh : origin.newlineBefore = false)
    : ∃ rest, Noted origin.rest before rest token.span.start token.newlineBefore
        ∧ rest.head? ≠ some '\n' := by
  obtain ⟨middle, leads, behind⟩ := trail.of_append
  cases behind with
  | cons read _ =>
      exact ⟨_, (leads.noted begins fresh).ahead read, Scanner.head?_of_next read⟩

end Trail

-----------------------------------------------------------------------------------------
-- Flags and lines
-----------------------------------------------------------------------------------------

/-- The flags of the tokens of a source agree with its text and with its lines. -/
structure NewlinesAgree (source : String) (tokens : List Token) : Prop where
  /-- A token is said to begin a line exactly if a line terminator stands between the end of the
  significant token before it, or the start of the source, and the token itself. -/
  flags
    : ∀ before token after, tokens = before ++ token :: after →
        ∃ gap, slice? source.toList (stopOf (before.filter Token.isSignificant)) token.span.start
            = some gap
          ∧ (token.newlineBefore ↔ ∃ c ∈ gap, isLineTerminator c)
  /-- Of two significant tokens that follow one another the second is said to begin a line exactly
  if it does not begin in the line in which the first ends. -/
  lines
    : ∀ before first second after,
        tokens.filter Token.isSignificant = before ++ first :: second :: after →
        (second.newlineBefore
          ↔ (LineIndex.ofText source.toList).sameLine first.span.stop second.span.start = false)
  /-- What follows a semicolon stands in the line of what is before the semicolon exactly if
  neither of the two is said to begin a line. -/
  semicolons
    : ∀ before first semicolon next after,
        tokens.filter Token.isSignificant = before ++ first :: semicolon :: next :: after →
        semicolon.isPunctuator ";" →
        ((LineIndex.ofText source.toList).sameLine first.span.stop next.span.start
          ↔ semicolon.newlineBefore = false ∧ next.newlineBefore = false)

/-- Significant tokens that follow one another are apart by comments only. -/
theorem split_of_filter {tokens before after : List Token} {first second : Token}
    (split : tokens.filter Token.isSignificant = before ++ first :: second :: after)
    : ∃ front back, tokens = front ++ second :: back
        ∧ front.filter Token.isSignificant = before ++ [first] := by
  rw [List.append_cons] at split
  obtain ⟨one, other, rfl, front, back⟩ := List.filter_eq_append_iff.mp split
  obtain ⟨comments, rest, rfl, skipped, -, -⟩ := List.filter_eq_cons_iff.mp back
  refine ⟨one ++ comments, rest, by simp, ?_⟩
  rw [List.filter_append, front, List.filter_eq_nil_iff.mpr skipped, List.append_nil]

namespace Trail

variable {source : String} {origin stop : Scanner} {tokens : List Token}

/-- A semicolon does not end a line. -/
theorem sameLine_of_semicolon (trail : Trail origin tokens stop) (begins : origin.offset = 0)
    (whole : origin.rest = source.toList) {semicolon : Token} (member : semicolon ∈ tokens)
    (isSemicolon : semicolon.isPunctuator ";")
    : (LineIndex.ofText source.toList).sameLine semicolon.span.start semicolon.span.stop := by
  obtain ⟨before, after, split, opens, closes⟩ := trail.cut member
  simp only [Token.isPunctuator, Bool.and_eq_true, beq_iff_eq] at isSemicolon
  rw [begins, Nat.zero_add] at opens
  rw [isSemicolon.2] at split closes
  have stop : semicolon.span.stop = byteLength (before ++ ";".toList) := by
    rw [closes, opens, byteLength_append]
  rw [stop, opens, ← whole, split]
  exact LineIndex.sameLine_of_unbroken rfl

/-- The flags that a scanner sets agree with the lines of the source. -/
theorem newlinesAgree (trail : Trail origin tokens stop) (begins : origin.offset = 0)
    (fresh : origin.newlineBefore = false) (whole : origin.rest = source.toList)
    : NewlinesAgree source tokens := by
  have lines (before : List Token) (first second : Token) (after : List Token)
      (split : tokens.filter Token.isSignificant = before ++ first :: second :: after)
      : (LineIndex.ofText source.toList).sameLine first.span.stop second.span.start
        = !second.newlineBefore := by
    obtain ⟨front, back, rfl, leads⟩ := split_of_filter split
    obtain ⟨rest, noted, unpaired⟩ := trail.noted_at begins fresh
    have same := noted.sameLine unpaired
    rwa [whole, leads, stopOf_concat] at same
  refine ⟨?_, ?_, ?_⟩
  · rintro before token after rfl
    obtain ⟨rest, ⟨front, gap, split, start, reach, flag⟩, -⟩ := trail.noted_at begins fresh
    refine ⟨gap, ?_, by rw [flag, List.any_eq_true]⟩
    rw [← whole, split, ← start, ← reach, byteLength_append]
    exact slice?_append ..
  · intro before first second after split
    rw [lines before first second after split, Bool.not_eq_false']
  · intro before first semicolon next after split isSemicolon
    have one := lines before first semicolon (next :: after) split
    have other := lines (before ++ [first]) semicolon next after (by simp [split])
    have ordered := trail.pairwise.filter Token.isSignificant
    rw [split] at ordered
    have member : semicolon ∈ tokens := by
      have among : semicolon ∈ tokens.filter Token.isSignificant := by simp [split]
      exact List.mem_of_mem_filter among
    have own := trail.sameLine_of_semicolon begins whole member isSemicolon
    obtain ⟨-, ordered, -⟩ := List.pairwise_append.mp ordered
    have opens := List.rel_of_pairwise_cons ordered List.mem_cons_self
    have closes := List.rel_of_pairwise_cons ordered.of_cons List.mem_cons_self
    rw [LineIndex.sameLine_around _ opens closes own, one, other]
    simp only [Bool.and_eq_true, Bool.not_eq_true']

end Trail

/-- However the slashes of a source are read again, the flags of its tokens agree with its lines.
So do those of the tokens of a parsed source, so that where a semicolon may be inserted for a line
break and where one may be taken away for it are told by the same lines. -/
theorem newlines_agree (source : String)
    : (∀ list, TokenList.ofSource source = .ok list →
        ∀ calls, NewlinesAgree source (list.rereadAll calls).tokens)
      ∧ ∀ parsed, parse source = .ok parsed → NewlinesAgree source parsed.tokens.toList := by
  constructor
  · intro list lexed calls
    simp only [TokenList.ofSource, TokenList.ofSourceWith] at lexed
    split at lexed
    · cases lexed
    · obtain rfl := Except.ok.inj lexed
      obtain ⟨stop, chain, -⟩ := (TokenList.scan_runsFrom _ _).rereadAll calls
      exact chain.trail.newlinesAgree rfl rfl rfl
  · intro parsed run
    obtain ⟨stop, trail⟩ := (ParsedSource.read_of_parse run).trail
    obtain ⟨-, -, -, rfl, -⟩ := parse_ok.mp run
    exact trail.newlinesAgree rfl rfl rfl

/-- A separator in a block comment puts the slash behind it on a new line, also when the slash is
read again as a regular expression, and so does a CR LF pair with the semicolon. -/
theorem newlines_agree_of_reread_slash
    : ∃ list, TokenList.ofSource "a /*\u2028*/ /'/\r\n;b" = .ok list
        ∧ (list.rereadAll [(2, .regex)]).tokens.map Token.text
          = ["a", "/*\u2028*/", "/'/", ";", "b"]
        ∧ (list.rereadAll [(2, .regex)]).tokens.map Token.newlineBefore
          = [false, false, true, true, false]
        ∧ NewlinesAgree "a /*\u2028*/ /'/\r\n;b" (list.rereadAll [(2, .regex)]).tokens :=
  ⟨_, rfl, by decide +kernel, by decide +kernel,
    (newlines_agree "a /*\u2028*/ /'/\r\n;b").1 _ rfl [(2, .regex)]⟩

end ScriptStyle
