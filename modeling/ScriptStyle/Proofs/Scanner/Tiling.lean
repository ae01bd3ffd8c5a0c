import Mathlib.Algebra.Group.Nat.Defs
import ScriptStyle.Proofs.Grammar.Coverage.Source
import ScriptStyle.Proofs.Scanner.Rereading

/-!
Tokens tile their source: each is a slice of it, one ends before the next begins, and only blank
characters lie between them. Behind the last token there are only blanks up to the end of the
source, or up to the fault that stopped the scanner.
-/

namespace ScriptStyle

open ScriptStyle.Text

/-- The place where the last of some tokens ends, the start of the source if there is none. -/
def stopOf (tokens : List Token) : Nat :=
  (tokens.getLast?.map (·.span.stop)).getD 0

theorem stopOf_concat (tokens : List Token) (token : Token)
    : stopOf (tokens ++ [token]) = token.span.stop := by
  rw [stopOf, List.getLast?_concat]
  rfl

/-- Two offsets into a source are boundaries, with only blank characters between them. -/
def BlankBetween (source : String) (start stop : Nat) : Prop :=
  ∃ gap, slice? source.toList start stop = some gap ∧ ∀ c ∈ gap, isBlank c

/-- Tokens tile a source up to its end, or up to a fault. -/
structure Tiles (source : String) (tokens : List Token) (fault : Option SyntaxError) : Prop where
  nonempty : ∀ token ∈ tokens, token.span.start < token.span.stop
  ordered : tokens.Pairwise fun first second => first.span.stop ≤ second.span.start
  boundaries
    : ∀ token ∈ tokens, isBoundary source.toList token.span.start
        ∧ isBoundary source.toList token.span.stop
  texts
    : ∀ token ∈ tokens,
        slice? source.toList token.span.start token.span.stop = some token.text.toList
  /-- Only blanks lie before the first token and between a token and the next. -/
  gaps
    : ∀ before token after, tokens = before ++ token :: after →
        BlankBetween source (stopOf before) token.span.start
  ended : fault = none → BlankBetween source (stopOf tokens) source.utf8ByteSize
  failed
    : ∀ error, fault = some error → ∃ offset, error.offset? = some offset
        ∧ BlankBetween source (stopOf tokens) offset

/-- Between boundaries with only blanks between them the first is not behind the second. -/
theorem BlankBetween.bounds {source : String} {start stop : Nat}
    (blank : BlankBetween source start stop)
    : start ≤ stop ∧ isBoundary source.toList start ∧ isBoundary source.toList stop := by
  obtain ⟨gap, cut, -⟩ := blank
  simp only [slice?, Option.ite_none_right_eq_some, Option.bind_eq_some_iff,
    Option.map_eq_some_iff] at cut
  obtain ⟨ordered, ⟨front, rest⟩, first, ⟨middle, back⟩, second, -⟩ := cut
  obtain ⟨whole, measured⟩ := cutAt?_eq_some.mp first
  obtain ⟨split, length⟩ := cutAt?_eq_some.mp second
  simp only at split length
  refine ⟨ordered, isBoundary_iff.mpr ⟨front, rest, whole, measured⟩,
    isBoundary_iff.mpr ⟨front ++ middle, back, by simp [whole, split], ?_⟩⟩
  rw [byteLength_append]
  omega

namespace Trail

variable {start stop : Scanner} {tokens : List Token}

/-- What a trail takes from a source, in characters and in bytes. -/
theorem taken (trail : Trail start tokens stop)
    : ∃ taken, start.rest = taken ++ stop.rest ∧ stop.offset = start.offset + byteLength taken := by
  induction trail with
  | nil => exact ⟨[], rfl, rfl⟩
  | @cons _ _ _ _ token _ read _ ih =>
      obtain ⟨gap, -, text, -, opens, closes, after, -⟩ := Scanner.next_splits read
      obtain ⟨others, rest, offset⟩ := ih
      refine ⟨gap ++ (token.text.toList ++ others), by simp [text, rest], ?_⟩
      simp only [byteLength_append]
      omega

/-- A trail stops where its last token does. -/
theorem offset_eq_stopOf (trail : Trail start tokens stop) (begins : start.offset = 0)
    : stop.offset = stopOf tokens := by
  rcases List.eq_nil_or_concat tokens with rfl | ⟨before, last, rfl⟩
  · cases trail
    exact begins
  · rw [List.concat_eq_append] at trail ⊢
    obtain ⟨middle, reading, -, read⟩ := trail.of_concat
    obtain ⟨gap, -, -, -, -, -, after, -⟩ := Scanner.next_splits read
    rw [after, stopOf_concat]

end Trail

namespace Scanner

variable {scanner : Scanner} {reading : SlashReading}

/-- A fault is met behind the blanks in front of it. -/
theorem offset_of_next_error {fault : SyntaxError} (fails : (scanner.next reading).1 = .error fault)
    : fault.offset? = some scanner.skipBlank.offset := by
  simp only [next] at fails
  generalize scanner.skipBlank = here at fails
  cases read : here.read? reading with
  | none => simp [read] at fails
  | some front =>
      simp only [read] at fails
      cases outcome : front.outcome with
      | ok kind => simp [outcome] at fails
      | error found =>
          simp only [outcome, Except.error.injEq] at fails
          subst fails
          have ofWord {first : Char} (failed : (here.readWord first).outcome = .error found)
              : found.offset? = some here.offset := by
            simp only [readWord, readPlain] at failed
            split at failed
            · cases failed
            · split at failed <;> cases failed
              rfl
          have ofTemplate {rest : List Char} {braces : List Brace} {whole part : TokenKind}
              (failed : (here.readTemplate rest braces whole part).outcome = .error found)
              : found.offset? = some here.offset := by
            simp only [readTemplate] at failed
            split at failed <;> cases failed
            rfl
          revert read
          fun_cases read? here reading <;> intro read
          case case1 => cases read
          all_goals obtain rfl := Option.some.inj read
          case case2 | case5 | case6 | case11 | case14 => cases outcome
          case case3 =>
            simp only [readComment, readPlain] at outcome
            split at outcome <;> cases outcome
            rfl
          case case4 =>
            simp only [readSlash, readDivision] at outcome
            split_ifs at outcome
            all_goals cases outcome
            rfl
          case case7 | case10 | case12 | case15 => exact ofWord outcome
          case case8 | case9 => exact ofTemplate outcome
          case case13 =>
            simp only [readString, readPlain] at outcome
            split at outcome <;> cases outcome
            rfl

end Scanner

-----------------------------------------------------------------------------------------
-- Trails from the start of a source
-----------------------------------------------------------------------------------------

section Source

variable {source : String} {origin stop : Scanner} {tokens : List Token}
  {fault : Option SyntaxError}

/-- From the end of a trail the blanks in front of a scanner lead to where it goes on. -/
theorem Trail.blankBetween (trail : Trail origin tokens stop) (begins : origin.offset = 0)
    (whole : origin.rest = source.toList)
    : BlankBetween source (stopOf tokens) stop.skipBlank.offset := by
  obtain ⟨taken, split, offset⟩ := trail.taken
  refine ⟨stop.rest.takeWhile isBlank, ?_, fun c member => List.mem_takeWhile_imp member⟩
  have parts : taken ++ stop.rest
      = taken ++ (stop.rest.takeWhile isBlank ++ stop.rest.dropWhile isBlank) := by
    rw [List.takeWhile_append_dropWhile]
  rw [Scanner.skipBlank_offset, ← trail.offset_eq_stopOf begins, offset, begins, Nat.zero_add,
    ← whole, split, parts]
  exact slice?_append ..

/-- Tokens that are read one after another tile the source, up to where reading stops. -/
theorem Trail.tiles (trail : Trail origin tokens stop) (begins : origin.offset = 0)
    (whole : origin.rest = source.toList) (stops : TokenList.StopsAt stop fault)
    : Tiles source tokens fault where
  nonempty token member := (trail.bounds member).2.1
  ordered := trail.pairwise
  boundaries := by
    intro token member
    obtain ⟨before, after, split, opens, closes⟩ := trail.cut member
    rw [begins, Nat.zero_add] at opens
    rw [← whole, split]
    refine ⟨isBoundary_iff.mpr ⟨before, _, rfl, opens.symm⟩,
      isBoundary_iff.mpr ⟨before ++ token.text.toList, after, by simp, ?_⟩⟩
    rw [byteLength_append]
    omega
  texts := by
    intro token member
    obtain ⟨before, after, split, opens, closes⟩ := trail.cut member
    rw [begins, Nat.zero_add] at opens
    rw [← whole, split, closes, opens]
    exact slice?_append ..
  gaps := by
    rintro before token after rfl
    obtain ⟨middle, leads, behind⟩ := trail.of_append
    cases behind with
    | cons read _ =>
        rw [Scanner.start_of_next read]
        exact leads.blankBetween begins whole
  ended := by
    rintro rfl
    obtain ⟨silent⟩ := stops
    have ended := Scanner.next_eq_none.mp (silent .guessed)
    obtain ⟨taken, split, offset⟩ := trail.taken
    have blank := trail.blankBetween begins whole
    have reach : stop.skipBlank.offset = source.utf8ByteSize := by
      rw [Scanner.skipBlank_rest] at ended
      have parts := List.takeWhile_append_dropWhile (p := isBlank) (l := stop.rest)
      rw [ended, List.append_nil] at parts
      rw [Scanner.skipBlank_offset, parts, offset, begins, Nat.zero_add, ← byteLength_append,
        ← split, whole, byteLength_toList]
    rwa [reach] at blank
  failed := by
    rintro error rfl
    cases stops with
    | failed reading fails =>
        exact ⟨_, Scanner.offset_of_next_error fails, trail.blankBetween begins whole⟩

/-- The tokens of a list that runs over a source tile it. -/
theorem TokenList.RunsFrom.tiles {list : TokenList}
    (runs : TokenList.RunsFrom (.ofText .standard source.toList) list)
    : Tiles source list.tokens list.fault := by
  obtain ⟨stop, chain, stops⟩ := runs
  exact chain.trail.tiles rfl rfl stops

end Source

-----------------------------------------------------------------------------------------
-- Whole sources
-----------------------------------------------------------------------------------------

/-- A program is read from a source without a fault. -/
theorem Grammar.fault_of_program {c c' : Grammar.Cursor} {program : Program}
    (run : Grammar.program c = .ok (program, c'))
    : c'.fault = none := by
  simp only [Grammar.program, Grammar.Parser.bind_ok, Grammar.Parser.get_ok] at run
  obtain ⟨body, m, -, _, _, ⟨rfl, rfl⟩, run⟩ := run
  cases fault : m.fault with
  | some found =>
      simp only [fault] at run
      cases run
  | none =>
      simp only [fault, Grammar.Parser.pure_ok] at run
      obtain ⟨-, rfl⟩ := run
      exact fault

/-- The tokens of a parsed source are those of a run to its end. -/
theorem ParsedSource.tiles {source : String} {parsed : ParsedSource}
    (run : parse source = .ok parsed)
    : Tiles source parsed.tokens.toList none := by
  obtain ⟨-, c', run, same, tokens, -⟩ := parse_ok.mp run
  have sound := Grammar.Cursor.ofSource_sound source
  obtain ⟨covered, ended⟩ := Grammar.program_covered sound run
  have whole : parsed.tokens.toList = c'.behind.toList := by
    rw [tokens, Grammar.Cursor.tokens, ended]
    simp
  obtain ⟨scanner, reading, trail, entries, fault⟩ := covered.sound.trail
  obtain ⟨stop, chain, stops⟩ := TokenList.scan_runsFrom scanner reading
  rw [← entries, ended] at chain
  rw [← fault, Grammar.fault_of_program run] at stops
  cases chain
  rw [whole]
  exact trail.tiles rfl rfl stops

/-- The tokens of a source tile it, however its slashes are read again. So do the tokens that
a source without faults has, and those of a source that parses. -/
theorem tokens_tile {source : String} (small : source.utf8ByteSize < 2 ^ 32)
    : (∃ list, TokenList.ofSource source = .ok list
        ∧ ∀ calls, Tiles source (list.rereadAll calls).tokens (list.rereadAll calls).fault)
      ∧ (∀ tokens, tokenize source = .ok tokens → Tiles source tokens none)
      ∧ ∀ parsed, parse source = .ok parsed → Tiles source parsed.tokens.toList none := by
  have lexed : TokenList.ofSource source
      = .ok (TokenList.scan (.ofText .standard source.toList) .guessed) := by
    rw [TokenList.ofSource, TokenList.ofSourceWith, if_neg]
    simp only [TokenList.maxSourceLength]
    omega
  have runs := TokenList.scan_runsFrom (.ofText .standard source.toList) .guessed
  refine ⟨⟨_, lexed, fun calls => (runs.rereadAll calls).tiles⟩, ?_, fun parsed run => ParsedSource.tiles run⟩
  intro tokens run
  simp only [tokenize, lexed, bind, Except.bind] at run
  split at run
  · cases run
  · next complete =>
      obtain rfl := Except.ok.inj run
      exact complete ▸ runs.tiles

/-- Blanks of several bytes lie around the tokens of a short source, and a comment is a token. -/
theorem tokens_tile_of_blanks
    : "\ufeffé /**/\u2028= 'x' ".utf8ByteSize < 2 ^ 32
      ∧ ∃ tokens, tokenize "\ufeffé /**/\u2028= 'x' " = .ok tokens
        ∧ Tiles "\ufeffé /**/\u2028= 'x' " tokens none
        ∧ tokens.map Token.span = [⟨3, 5⟩, ⟨6, 10⟩, ⟨13, 14⟩, ⟨15, 18⟩] := by
  have small : "\ufeffé /**/\u2028= 'x' ".utf8ByteSize < 2 ^ 32 := by decide +kernel
  have spans : (tokenize "\ufeffé /**/\u2028= 'x' ").toOption.map (·.map Token.span)
      = some [⟨3, 5⟩, ⟨6, 10⟩, ⟨13, 14⟩, ⟨15, 18⟩] := by
    decide +kernel
  obtain ⟨tokens, run, known⟩ := exists_ok_of_toOption_map spans
  exact ⟨small, tokens, run, (tokens_tile small).2.1 tokens run, known⟩

end ScriptStyle
