import Mathlib.Data.List.TakeWhile
import ScriptStyle.Proofs.Scanner.Reading

/-!
Tokens read one after another. The spans of such a trail are nonempty, in order and disjoint,
and each cuts the text of its token out of the source.
-/

namespace ScriptStyle

open ScriptStyle.Text

namespace Lexeme

theorem punctuatorLength?_pos {text : List Char} {length : Nat}
    (found : punctuatorLength? text = some length)
    : 0 < length := by
  have nonempty : ∀ word ∈ punctuators, 0 < word.length := by decide
  have ofFind (found : (punctuators.find? (startsWith · text)).map String.length = some length)
      : 0 < length := by
    obtain ⟨word, first, rfl⟩ := Option.map_eq_some_iff.mp found
    exact nonempty word (List.mem_of_find?_eq_some first)
  fun_cases punctuatorLength? text with
  | case1 c rest digit =>
      rw [punctuatorLength?, if_pos digit] at found
      obtain rfl := Option.some.inj found
      exact Nat.one_pos
  | case2 c rest notDigit =>
      rw [punctuatorLength?, if_neg notDigit] at found
      exact ofFind found
  | case3 =>
      rw [punctuatorLength?] at found
      · exact ofFind found
      · assumption

theorem nameLength_pos {c : Char} {rest : List Char}
    (begins : isIdentifierStart c || c == '\\')
    : 0 < nameLength false (c :: rest) := by
  have continues : (c == '\\' || isIdentifierContinue c) = true := by
    rcases Bool.or_eq_true_iff.mp begins with start | backslash
    · simp [isIdentifierContinue, start]
    · simp [backslash]
  rw [nameLength.eq_def]
  split
  · cases ‹c :: rest = []›
  · cases ‹false = true›
  · omega
  · next equal =>
      obtain ⟨rfl, rfl⟩ := List.cons.inj equal
      rw [if_pos continues]
      omega

theorem decimalLength_pos {c : Char} {rest : List Char} (digit : c.isDigit)
    : 0 < decimalLength (c :: rest) := by
  have whole : 0 < lengthWhile isDecimalPart (c :: rest) := by
    simp [lengthWhile, isDecimalPart, digit]
  simp only [decimalLength]
  omega

theorem numberLength_pos {c : Char} {rest : List Char} (digit : c.isDigit)
    : 0 < numberLength (c :: rest) := by
  rw [numberLength.eq_def]
  split
  · split
    · omega
    · exact decimalLength_pos (by decide)
  · exact decimalLength_pos digit

theorem fractionalLength_pos {c : Char} {rest : List Char}
    : 0 < numberLength ('.' :: c :: rest) := by
  have whole : lengthWhile isDecimalPart ('.' :: c :: rest) = 0 := by
    simp [lengthWhile, show isDecimalPart '.' = false from rfl]
  rw [numberLength]
  · simp only [decimalLength, whole, List.drop_zero, fractionLength]
    omega
  · exact fun _ _ zero => by cases zero

end Lexeme

namespace Scanner

variable {scanner : Scanner} {reading : SlashReading}

-----------------------------------------------------------------------------------------
-- Every token takes a character
-----------------------------------------------------------------------------------------

theorem readWord_length_pos {c : Char} {rest : List Char} {kind : TokenKind}
    (text : scanner.rest = c :: rest) (read : (scanner.readWord c).outcome = .ok kind)
    : 0 < (scanner.readWord c).length := by
  simp only [readWord] at read ⊢
  split
  · next begins =>
      rw [text]
      exact Lexeme.nameLength_pos begins
  · next notName =>
      rw [if_neg notName] at read
      split
      · next found => exact Lexeme.punctuatorLength?_pos found
      · next missing =>
          rw [missing] at read
          cases read

/-- What is read as a token takes at least one character. -/
theorem read?_length_pos {front : Reading} {kind : TokenKind}
    (read : scanner.read? reading = some front) (outcome : front.outcome = .ok kind)
    : 0 < front.length := by
  revert read
  fun_cases read? scanner reading <;> intro read
  case case1 => cases read
  all_goals obtain rfl := Option.some.inj read
  case case2 | case5 | case6 | case8 | case9 => simp only [readPlain, readTemplate]; omega
  case case3 =>
    simp only [readComment] at outcome ⊢
    split
    · simp only [readPlain]; omega
    · next unclosed => rw [if_neg unclosed] at outcome; cases outcome
  case case4 => 
    simp only [readSlash, readDivision]
    split
    · split
      · simp only; omega
      · split
        · simp only; omega
        · simp only; split <;> omega
    · simp only; split <;> omega
  case case7 c rest text _ _ => exact readWord_length_pos text outcome
  case case10 rest text _ => exact readWord_length_pos text outcome
  case case11 c rest text _ =>
    simp only [readPlain, text]
    exact Lexeme.fractionalLength_pos
  case case12 c rest text _ => exact readWord_length_pos text outcome
  case case13 =>
    simp only [readString]
    split <;> simp only [readPlain] <;> omega
  case case14 c rest _ _ _ _ _ _ _ text _ digit =>
    simp only [readPlain, text]
    exact Lexeme.numberLength_pos digit
  case case15 c rest _ _ _ _ _ _ _ text _ _ => exact readWord_length_pos text outcome

-----------------------------------------------------------------------------------------
-- Where a token lies
-----------------------------------------------------------------------------------------

@[simp] theorem skipBlank_braces (scanner : Scanner)
    : scanner.skipBlank.braces = scanner.braces := rfl

@[simp] theorem skipBlank_guess (scanner : Scanner)
    : scanner.skipBlank.guess = scanner.guess := rfl

@[simp] theorem skipBlank_previous (scanner : Scanner)
    : scanner.skipBlank.previous = scanner.previous := rfl

theorem skipBlank_offset (scanner : Scanner)
    : scanner.skipBlank.offset
      = scanner.offset + byteLength (scanner.rest.takeWhile Text.isBlank) := by
  rw [← take_lengthWhile]
  rfl

@[simp] theorem behind_offset (scanner : Scanner) (kind : TokenKind) (front : Reading)
    : (scanner.behind kind front).offset
      = scanner.offset + byteLength (scanner.rest.take front.length) := by
  simp only [behind, after, advance]
  split <;> rfl

@[simp] theorem behind_guess (scanner : Scanner) (kind : TokenKind) (front : Reading)
    : (scanner.behind kind front).guess = scanner.guess := by
  simp only [behind, after, advance]
  split <;> rfl

/-- A token begins behind the blanks, however a slash is read. -/
theorem start_of_next {token : Token} {after : Scanner}
    (read : scanner.next reading = (.ok (some token), after))
    : token.span.start = scanner.skipBlank.offset := by
  obtain ⟨front, kind, reads, outcome, rfl, rfl⟩ := next_eq_token.mp read
  rfl

/-- Whether a token begins a line does not depend on how a slash is read. -/
theorem newline_of_next {token : Token} {after : Scanner}
    (read : scanner.next reading = (.ok (some token), after))
    : token.newlineBefore = scanner.skipBlank.newlineBefore := by
  obtain ⟨front, kind, reads, outcome, rfl, rfl⟩ := next_eq_token.mp read
  rfl

/-- A token cuts its text out of the source, behind blanks only and in front of what is still
to be read. -/
theorem next_splits {token : Token} {after : Scanner}
    (read : scanner.next reading = (.ok (some token), after))
    : ∃ gap, (∀ c ∈ gap, Text.isBlank c)
        ∧ scanner.rest = gap ++ (token.text.toList ++ after.rest)
        ∧ token.text.toList ≠ []
        ∧ token.span.start = scanner.offset + byteLength gap
        ∧ token.span.stop = token.span.start + byteLength token.text.toList
        ∧ after.offset = token.span.stop
        ∧ after.guess = scanner.guess := by
  obtain ⟨front, kind, reads, outcome, rfl, rfl⟩ := next_eq_token.mp read
  have positive := read?_length_pos reads outcome
  refine ⟨scanner.rest.takeWhile Text.isBlank, fun c member => List.mem_takeWhile_imp member,
    ?_, ?_, ?_, ?_, ?_, ?_⟩
  · rw [behind_rest, tokenAt, String.toList_ofList, List.take_append_drop, skipBlank_rest,
      List.takeWhile_append_dropWhile]
  · intro empty
    have ended : scanner.skipBlank.rest = [] := by
      rw [tokenAt, String.toList_ofList, List.take_eq_nil_iff] at empty
      exact empty.resolve_left (by omega)
    simp [read?, ended] at reads
  · exact skipBlank_offset scanner
  · simp only [tokenAt, String.toList_ofList]
  · exact behind_offset ..
  · exact behind_guess ..

/-- Reading a token leaves less of the source. -/
theorem rest_length_of_next {token : Token} {after : Scanner}
    (read : scanner.next reading = (.ok (some token), after))
    : after.rest.length < scanner.rest.length := by
  obtain ⟨gap, -, text, nonempty, -⟩ := next_splits read
  have positive := List.length_pos_iff.mpr nonempty
  simp only [text, List.length_append]
  omega

-----------------------------------------------------------------------------------------
-- Slashes
-----------------------------------------------------------------------------------------

theorem read?_slash {tail : List Char} (text : scanner.rest = '/' :: tail)
    (notLine : tail.head? ≠ some '/') (notBlock : tail.head? ≠ some '*')
    : scanner.read? reading = some (scanner.readSlash reading tail) := by
  rw [read?, text]
  split
  case h_4 equal => rw [(List.cons.inj equal).2]
  case h_9 notSlash _ _ _ _ equal => exact absurd (List.cons.inj equal).1.symm notSlash
  all_goals simp_all

/-- A token that begins with a slash is read from a slash that begins no comment, and is read
from there with any other reading. -/
theorem slash_of_next {token : Token} {after : Scanner}
    (read : scanner.next reading = (.ok (some token), after)) (slash : token.startsWithSlash)
    : ∃ tail, scanner.skipBlank.rest = '/' :: tail
        ∧ tail.head? ≠ some '/' ∧ tail.head? ≠ some '*' := by
  obtain ⟨front, kind, reads, outcome, rfl, rfl⟩ := next_eq_token.mp read
  have positive := read?_length_pos reads outcome
  generalize scanner.skipBlank = here at reads slash
  have first {c : Char} {rest : List Char} (text : here.rest = c :: rest) (other : c ≠ '/')
      (word : kind = .identifier ∨ kind = .punctuator) : False := by
    obtain ⟨more, length⟩ : ∃ more, front.length = more + 1 := Nat.exists_eq_add_one.mpr positive
    rcases word with rfl | rfl
    · simp [Token.startsWithSlash, tokenAt] at slash
    · simp only [Token.startsWithSlash, tokenAt, text, length, List.take_succ_cons,
        Bool.or_eq_true, beq_iff_eq] at slash
      have begins {word : String} {letters : List Char} (spelled : word.toList = '/' :: letters)
          (same : String.ofList (c :: rest.take more) = word) : False := by
        have chars := congrArg String.toList same
        rw [String.toList_ofList, spelled] at chars
        exact other (List.cons.inj chars).1
      rcases slash with divide | assign
      · exact begins (rfl : "/".toList = ['/']) divide
      · exact begins (rfl : "/=".toList = ['/', '=']) assign
  have notSlash (other : kind ≠ .regex ∧ kind ≠ .punctuator) : False := by
    cases kind <;> simp_all [Token.startsWithSlash, tokenAt]
  revert reads
  fun_cases read? here reading <;> intro reads
  case case1 => cases reads
  all_goals obtain rfl := Option.some.inj reads
  case case2 | case5 | case6 | case11 | case14 =>
    obtain rfl := Except.ok.inj outcome
    exact (notSlash (by decide)).elim
  case case3 =>
    obtain rfl := kind_of_readComment outcome
    exact (notSlash (by decide)).elim
  case case4 tail notLine notBlock text =>
    refine ⟨tail, text, ?_, ?_⟩
    · intro opened
      obtain ⟨rest, rfl⟩ := List.head?_eq_some_iff.mp opened
      exact notLine rest rfl
    · intro opened
      obtain ⟨rest, rfl⟩ := List.head?_eq_some_iff.mp opened
      exact notBlock rest rfl
  case case7 c rest text _ _ => exact (first text (by decide) (kind_of_readWord outcome)).elim
  case case8 | case9 =>
    rcases kind_of_readTemplate outcome with ⟨rfl, -⟩ | ⟨rfl, -⟩ <;>
      exact (notSlash (by decide)).elim
  case case10 rest text _ => exact (first text (by decide) (kind_of_readWord outcome)).elim
  case case12 c rest text _ => exact (first text (by decide) (kind_of_readWord outcome)).elim
  case case13 =>
    obtain ⟨rfl, -⟩ := kind_of_readString outcome
    exact (notSlash (by decide)).elim
  case case15 c rest _ _ notSlash _ _ _ _ text _ _ =>
    exact (first text notSlash (kind_of_readWord outcome)).elim

/-- What is read at a slash that begins no comment is significant. -/
theorem significant_of_slash {token : Token} {after : Scanner} {tail : List Char}
    (read : scanner.next reading = (.ok (some token), after))
    (text : scanner.skipBlank.rest = '/' :: tail)
    (notLine : tail.head? ≠ some '/') (notBlock : tail.head? ≠ some '*')
    : token.isSignificant := by
  obtain ⟨front, kind, reads, outcome, rfl, rfl⟩ := next_eq_token.mp read
  rw [read?_slash text notLine notBlock] at reads
  obtain rfl := Option.some.inj reads
  rcases kind_of_readSlash outcome with rfl | rfl <;> rfl

/-- Only a slash that begins no comment can be read in more than one way. -/
theorem read?_reading (scanner : Scanner) (reading other : SlashReading)
    : scanner.read? reading = scanner.read? other
      ∨ ∃ tail, scanner.rest = '/' :: tail
          ∧ scanner.read? reading = some (scanner.readSlash reading tail)
          ∧ scanner.read? other = some (scanner.readSlash other tail) := by
  obtain ⟨rest, offset, braces, newline, previous, guess⟩ := scanner
  simp only [read?]
  split
  case h_4 tail _ _ => exact .inr ⟨tail, rfl, rfl, rfl⟩
  all_goals exact .inl rfl

@[simp] theorem readDivision_outcome (tail : List Char)
    : (scanner.readDivision tail).outcome = .ok .punctuator := rfl

/-- A slash is read as a regular expression or as a division. -/
theorem readSlash_cases (scanner : Scanner) (reading : SlashReading) (tail : List Char)
    : (∃ length, scanner.readSlash reading tail = ⟨.ok .regex, 1 + length, scanner.braces⟩)
      ∨ scanner.readSlash reading tail = scanner.readDivision tail
      ∨ ∃ fault length, scanner.readSlash reading tail = ⟨.error fault, length, scanner.braces⟩ := by
  simp only [readSlash]
  split
  · split
    · exact .inl ⟨_, rfl⟩
    · split
      · exact .inr (.inr ⟨_, _, rfl⟩)
      · exact .inr (.inl rfl)
  · exact .inr (.inl rfl)

theorem braces_of_readSlash (reading : SlashReading) (tail : List Char)
    : (scanner.readSlash reading tail).braces = scanner.braces := by
  rcases readSlash_cases scanner reading tail with ⟨_, eq⟩ | eq | ⟨_, _, eq⟩ <;> rw [eq]
  rfl

theorem startsWithSlash_of_readSlash {kind : TokenKind} {tail : List Char}
    (text : scanner.rest = '/' :: tail) (outcome : (scanner.readSlash reading tail).outcome = .ok kind)
    : (scanner.tokenAt kind (scanner.readSlash reading tail).length).startsWithSlash := by
  rcases readSlash_cases scanner reading tail with ⟨_, eq⟩ | eq | ⟨_, _, eq⟩
    <;> rw [eq] at outcome ⊢
  · obtain rfl := Except.ok.inj outcome
    rfl
  · obtain rfl := Except.ok.inj outcome
    by_cases assigns : tail.head? = some '='
    · obtain ⟨rest, rfl⟩ := List.head?_eq_some_iff.mp assigns
      simp [readDivision, tokenAt, text, Token.startsWithSlash]
    · simp [readDivision, tokenAt, text, Token.startsWithSlash, assigns]
  · cases outcome

/-- A token that does not begin with a slash is read whatever the reading of a slash is. -/
theorem next_of_not_slash {token : Token} {after : Scanner}
    (read : scanner.next reading = (.ok (some token), after)) (other : ¬token.startsWithSlash)
    (again : SlashReading)
    : scanner.next again = (.ok (some token), after) := by
  obtain ⟨front, kind, reads, outcome, rfl, rfl⟩ := next_eq_token.mp read
  refine next_eq_token.mpr ⟨front, kind, ?_, outcome, rfl, rfl⟩
  rcases read?_reading scanner.skipBlank again reading with same | ⟨tail, text, -, slash⟩
  · rw [same, reads]
  · obtain rfl := Option.some.inj (reads.symm.trans slash)
    exact absurd (startsWithSlash_of_readSlash text outcome) other

/-- What is read again from a slash begins with it again. -/
theorem next_slash {again : SlashReading} {token other : Token} {after after' : Scanner}
    (read : scanner.next reading = (.ok (some token), after)) (slash : token.startsWithSlash)
    (reread : scanner.next again = (.ok (some other), after'))
    : other.startsWithSlash := by
  obtain ⟨tail, text, notLine, notBlock⟩ := slash_of_next read slash
  obtain ⟨front, kind, reads, outcome, rfl, rfl⟩ := next_eq_token.mp reread
  rw [read?_slash text notLine notBlock] at reads
  obtain rfl := Option.some.inj reads
  exact startsWithSlash_of_readSlash text outcome

/-- What is read behind a token depends on that token only. -/
theorem after_of_next {other : SlashReading} {token : Token} {after after' : Scanner}
    (read : scanner.next reading = (.ok (some token), after))
    (again : scanner.next other = (.ok (some token), after'))
    : after = after' := by
  obtain ⟨front, kind, reads, outcome, rfl, rfl⟩ := next_eq_token.mp read
  obtain ⟨front', kind', reads', outcome', same, rfl⟩ := next_eq_token.mp again
  generalize scanner.skipBlank = here at reads reads' same
  have kinds : kind = kind' := congrArg Token.kind same
  have texts : here.rest.take front.length = here.rest.take front'.length :=
    String.ofList_injective (congrArg Token.text same)
  have rests : here.rest.drop front.length = here.rest.drop front'.length := by
    have whole := (List.take_append_drop front.length here.rest).trans
      (List.take_append_drop front'.length here.rest).symm
    rw [texts] at whole
    exact List.append_cancel_left whole
  have braces : front.braces = front'.braces := by
    rcases read?_reading here reading other with equal | ⟨tail, -, first, second⟩
    · rw [equal, reads'] at reads
      rw [Option.some.inj reads]
    · obtain rfl := Option.some.inj (reads.symm.trans first)
      obtain rfl := Option.some.inj (reads'.symm.trans second)
      rw [braces_of_readSlash, braces_of_readSlash]
  subst kinds
  simp only [behind, advance, texts, rests, braces]

end Scanner

-----------------------------------------------------------------------------------------
-- Trails
-----------------------------------------------------------------------------------------

/-- Tokens that are read one after another between two scanners, each with some reading of
a slash. -/
inductive Trail : Scanner → List Token → Scanner → Prop
  | nil {start : Scanner} : Trail start [] start
  | cons {start next stop : Scanner} {reading : SlashReading} {token : Token} {rest : List Token}
      (read : start.next reading = (.ok (some token), next)) (trail : Trail next rest stop)
      : Trail start (token :: rest) stop

namespace Trail

variable {start middle stop : Scanner} {tokens others : List Token} {token : Token}

theorem append (first : Trail start tokens middle) (second : Trail middle others stop)
    : Trail start (tokens ++ others) stop := by
  induction first with
  | nil => exact second
  | cons read _ ih => exact .cons read (ih second)

theorem of_append (trail : Trail start (tokens ++ others) stop)
    : ∃ middle, Trail start tokens middle ∧ Trail middle others stop := by
  induction tokens generalizing start with
  | nil => exact ⟨start, .nil, trail⟩
  | cons token rest ih =>
      cases trail with
      | cons read after =>
          obtain ⟨middle, before, behind⟩ := ih after
          exact ⟨middle, .cons read before, behind⟩

/-- The last token of a trail is read where the tokens before it lead. -/
theorem of_concat (trail : Trail start (tokens ++ [token]) stop)
    : ∃ middle reading, Trail start tokens middle
        ∧ middle.next reading = (.ok (some token), stop) := by
  obtain ⟨middle, before, behind⟩ := trail.of_append
  cases behind with
  | cons read rest =>
      cases rest
      exact ⟨middle, _, before, read⟩

/-- Tokens lead to one place only. -/
theorem unique {stop' : Scanner} (first : Trail start tokens stop)
    (second : Trail start tokens stop')
    : stop = stop' := by
  induction first with
  | nil =>
      cases second
      rfl
  | cons read _ ih =>
      cases second with
      | cons again rest =>
          obtain rfl := Scanner.after_of_next read again
          exact ih rest

/-- A trail moves forward and never past the source. -/
theorem offset_le (trail : Trail start tokens stop)
    : start.offset ≤ stop.offset
      ∧ stop.offset + byteLength stop.rest = start.offset + byteLength start.rest := by
  induction trail with
  | nil => exact ⟨Nat.le_refl _, rfl⟩
  | cons read _ ih =>
      obtain ⟨gap, -, text, -, first, last, after, -⟩ := Scanner.next_splits read
      simp only [text, byteLength_append]
      omega

/-- The tokens of a trail lie between its ends. -/
theorem bounds (trail : Trail start tokens stop) (member : token ∈ tokens)
    : start.offset ≤ token.span.start ∧ token.span.start < token.span.stop
      ∧ token.span.stop ≤ stop.offset := by
  induction trail with
  | nil => cases member
  | cons read rest ih =>
      obtain ⟨gap, -, text, nonempty, first, last, after, -⟩ := Scanner.next_splits read
      have positive := byteLength_pos nonempty
      have onward := rest.offset_le
      rcases List.mem_cons.mp member with rfl | later
      · omega
      · have inner := ih later
        omega

/-- Each token of a trail ends before the next begins. -/
theorem pairwise (trail : Trail start tokens stop)
    : tokens.Pairwise fun first second => first.span.stop ≤ second.span.start := by
  induction trail with
  | nil => exact .nil
  | cons read rest ih =>
      obtain ⟨gap, -, -, -, -, -, after, -⟩ := Scanner.next_splits read
      refine .cons (fun token later => ?_) ih
      have inner := rest.bounds later
      omega

/-- Of two tokens of a trail the first ends before the second begins, and neither is empty. -/
theorem ordered (trail : Trail start tokens stop)
    : tokens.Pairwise fun first second =>
        first.span.start < first.span.stop ∧ first.span.stop ≤ second.span.start
          ∧ second.span.start < second.span.stop :=
  trail.pairwise.imp_of_mem fun member later between =>
    ⟨(trail.bounds member).2.1, between, (trail.bounds later).2.1⟩

/-- Tokens at two places of a trail, the first in front of the second. -/
theorem ordered_at (trail : Trail start tokens stop) {index later : Nat} {first second : Token}
    (here : tokens[index]? = some first) (there : tokens[later]? = some second)
    (before : index < later)
    : first.span.start < first.span.stop ∧ first.span.stop ≤ second.span.start
        ∧ second.span.start < second.span.stop := by
  obtain ⟨bound, rfl⟩ := List.getElem?_eq_some_iff.mp here
  obtain ⟨bound', rfl⟩ := List.getElem?_eq_some_iff.mp there
  exact List.pairwise_iff_getElem.mp trail.ordered index later bound bound' before

/-- A token of a trail is found by its end. -/
theorem index_unique (trail : Trail start tokens stop) {index other : Nat} {first second : Token}
    (here : tokens[index]? = some first) (there : tokens[other]? = some second)
    (same : first.span.stop = second.span.stop)
    : index = other := by
  rcases Nat.lt_trichotomy index other with before | equal | behind
  · have := trail.ordered_at here there before
    omega
  · exact equal
  · have := trail.ordered_at there here behind
    omega

/-- A token of a trail cuts its text out of the source. -/
theorem cut (trail : Trail start tokens stop) (member : token ∈ tokens)
    : ∃ before after, start.rest = before ++ (token.text.toList ++ after)
        ∧ token.span.start = start.offset + byteLength before
        ∧ token.span.stop = token.span.start + byteLength token.text.toList := by
  induction trail with
  | nil => cases member
  | @cons _ _ _ _ first _ read rest ih =>
      obtain ⟨gap, -, text, -, opens, closes, after, -⟩ := Scanner.next_splits read
      rcases List.mem_cons.mp member with rfl | later
      · exact ⟨gap, _, text, opens, closes⟩
      · obtain ⟨before, behind, inner, opens', closes'⟩ := ih later
        refine ⟨gap ++ (first.text.toList ++ before), behind, ?_, ?_, closes'⟩
        · simp [text, inner, List.append_assoc]
        · simp only [byteLength_append]
          omega

end Trail

end ScriptStyle
