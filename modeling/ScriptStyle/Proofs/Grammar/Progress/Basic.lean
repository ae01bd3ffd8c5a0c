import ScriptStyle.Proofs.Grammar.Behaviour.Basic
import ScriptStyle.Proofs.Grammar.Progress.Indices

/-!
How parsers walk over the tokens of a source: by changes of the cursor, and with constructs that
nest no deeper than the bytes allow that remain.
-/

namespace ScriptStyle

-----------------------------------------------------------------------------------------
-- Faults of the scanner
-----------------------------------------------------------------------------------------

namespace Scanner

variable {scanner : Scanner} {reading : SlashReading}

/-- No text that the scanner meets is nested too deeply. -/
theorem outcome_ne_nestingTooDeep {found : Reading} (read : scanner.read? reading = some found)
    (offset : Nat)
    : found.outcome ≠ .error (.nestingTooDeep offset) := by
  revert read
  fun_cases read? scanner reading <;> intro read failed
  case case1 => cases read
  all_goals
    obtain rfl := Option.some.inj read
    grind [readComment, readSlash, readDivision, readTemplate, readString, readWord, readPlain]

theorem next_ne_nestingTooDeep (offset : Nat)
    : (scanner.next reading).1 ≠ .error (.nestingTooDeep offset) := by
  intro failed
  simp only [next] at failed
  cases read : scanner.skipBlank.read? reading with
  | none => simp [read] at failed
  | some found =>
      simp only [read] at failed
      cases outcome : found.outcome with
      | ok kind => simp [outcome] at failed
      | error fault =>
          simp only [outcome, Except.error.injEq] at failed
          exact outcome_ne_nestingTooDeep read offset (failed ▸ outcome)

end Scanner

theorem TokenList.fault_ne_nestingTooDeep (scanner : Scanner) (reading : SlashReading) (offset : Nat)
    : (scan scanner reading).fault ≠ some (.nestingTooDeep offset) := by
  intro fault
  obtain ⟨stop, chain, stops⟩ := TokenList.scan_runsFrom scanner reading
  rw [fault] at stops
  cases stops with
  | failed again fails => exact Scanner.next_ne_nestingTooDeep offset fails

namespace Grammar

variable {α β : Type} {origin : Scanner} {depth need : Nat} {c m c' : Cursor}

-----------------------------------------------------------------------------------------
-- Bytes that remain
-----------------------------------------------------------------------------------------

namespace Cursor.Sound

theorem fault_ne_nestingTooDeep (sound : c.Sound origin) (offset : Nat)
    : c.fault ≠ some (.nestingTooDeep offset) := by
  obtain ⟨scanner, reading, -, -, same⟩ := sound.trail
  rw [same]
  exact TokenList.fault_ne_nestingTooDeep scanner reading offset

theorem endOfInput_ne_nestingTooDeep (sound : c.Sound origin) (expected : String) (offset : Nat)
    : c.endOfInput expected ≠ .nestingTooDeep offset := by
  rw [endOfInput]
  cases fault : c.fault with
  | none =>
      intro same
      cases same
  | some error =>
      rintro rfl
      exact sound.fault_ne_nestingTooDeep _ fault

theorem unexpected_ne_nestingTooDeep (sound : c.Sound origin) (expected : String) (offset : Nat)
    : c.unexpected expected ≠ .nestingTooDeep offset := by
  rw [unexpected]
  cases c.peek? with
  | none => exact sound.endOfInput_ne_nestingTooDeep expected offset
  | some token =>
      intro same
      cases same

/-- Where the offset rises fewer bytes remain. -/
theorem remaining_lt (sound : c.Sound origin) (moved : m.Sound origin) (rises : c.offset < m.offset)
    : m.remaining < c.remaining := by
  have inside := moved.lastStop_le_offset.2
  have length : m.sourceLength = c.sourceLength := by rw [moved.length, sound.length]
  simp only [remaining]
  omega

/-- A token takes at least one of the bytes that remain. -/
theorem remaining_advance {token : Token} (sound : c.Sound origin) (here : c.peek? = some token)
    : c.advance.remaining < c.remaining := by
  obtain ⟨taken, reach⟩ := sound.offset_lt_advance here
  exact sound.remaining_lt (sound.advance here).1 (Nat.lt_of_lt_of_le taken reach)

end Cursor.Sound

/-- Where a cursor moves on no more bytes remain. -/
theorem Moves.remaining_le (moves : Moves origin c m) (sound : c.Sound origin)
    : m.remaining ≤ c.remaining := by
  have onward := moves.offset_le
  have length : m.sourceLength = c.sourceLength := by rw [moves.sound.length, sound.length]
  simp only [Cursor.remaining]
  omega

/-- The bytes that remain leave room for the levels of nesting that are needed. A token takes at
least one byte, and no more than three levels are entered before a token is taken. -/
def Cursor.Roomy (depth need : Nat) (c : Cursor) : Prop :=
  3 * c.remaining + need ≤ depth

theorem Cursor.Roomy.of_moves (roomy : c.Roomy depth need) (sound : c.Sound origin)
    (moves : Moves origin c m)
    : m.Roomy depth need := by
  have less := moves.remaining_le sound
  simp only [Cursor.Roomy] at roomy ⊢
  omega

/-- The current token makes room for three levels when it is moved past. -/
def Cursor.Spacious (origin : Scanner) (need : Nat) (c : Cursor) : Prop :=
  ∀ depth, c.Sound origin → c.Roomy depth need → c.advance.Roomy depth 3

theorem Cursor.Spacious.of_peek? {token : Token} (here : c.peek? = some token)
    : c.Spacious origin need := by
  intro depth sound roomy
  have less := sound.remaining_advance here
  simp only [Cursor.Roomy] at roomy ⊢
  omega

theorem Cursor.Spacious.of_sees {text : String} (sees : c.sees text)
    : c.Spacious origin need := by
  obtain ⟨token, here, -⟩ := Cursor.sees_eq_true.mp sees
  exact .of_peek? here

/-- Where there is room for three levels a token need not be taken. -/
theorem Cursor.Spacious.of_three
    : c.Spacious origin (need + 3) := by
  intro depth sound roomy
  have fewer : c.Roomy depth 3 := by
    simp only [Cursor.Roomy] at roomy ⊢
    omega
  exact fewer.of_moves sound (.advance sound)

-----------------------------------------------------------------------------------------
-- Walks
-----------------------------------------------------------------------------------------

/-- How a parser walks from a cursor. If it succeeds the cursor is changed step by step, and where
there is room for the levels it needs it does not fail for its nesting. -/
structure Parser.Walks (origin : Scanner) (depth need : Nat) (c : Cursor) (p : Parser α) : Prop where
  leads : ∀ a c', p c = .ok (a, c') → c.Leads c'
  sheltered
    : c.Sound origin → c.Roomy depth need → ∀ offset, p c ≠ .error (.nestingTooDeep offset)

namespace Parser.Walks

variable {p q : Parser α} {f : α → Parser β}

-----------------------------------------------------------------------------------------
-- Combinations
-----------------------------------------------------------------------------------------

/-- One parser after another, where the room that is left is known. -/
theorem bind_room (need' : Nat) (first : Walks origin depth need c p)
    (room : ∀ a m, p c = .ok (a, m) → c.Sound origin → c.Roomy depth need → m.Roomy depth need')
    (rest : ∀ a m, p c = .ok (a, m) → Walks origin depth need' m (f a))
    : Walks origin depth need c (p >>= f) where
  leads := by
    intro b c' run
    obtain ⟨a, m, run, next⟩ := bind_ok.mp run
    exact (first.leads a m run).trans ((rest a m run).leads b c' next)
  sheltered := by
    intro sound roomy offset failed
    rcases bind_error.mp failed with run | ⟨a, m, run, next⟩
    · exact first.sheltered sound roomy offset run
    · have moved := (first.leads a m run).moves sound
      exact (rest a m run).sheltered moved.sound (room a m run sound roomy) offset next

theorem bind (first : Walks origin depth need c p) (rest : ∀ a m, Walks origin depth need m (f a))
    : Walks origin depth need c (p >>= f) :=
  first.bind_room need
    (fun a m run sound roomy => roomy.of_moves sound ((first.leads a m run).moves sound))
    fun a m _ => rest a m

theorem pure {a : α}
    : Walks origin depth need c (Pure.pure a) where
  leads := by
    intro b c' run
    obtain ⟨-, rfl⟩ := pure_ok.mp run
    exact .refl
  sheltered := by
    intro sound roomy offset failed
    cases failed

/-- A parser that looks at its own cursor. -/
theorem look {f : Cursor → Parser β} (rest : Walks origin depth need c (f c))
    : Walks origin depth need c ((MonadState.get : Parser Cursor) >>= f) where
  leads := rest.leads
  sheltered := rest.sheltered

theorem map {g : α → β} (given : Walks origin depth need c p)
    : Walks origin depth need c (g <$> p) := by
  rw [map_eq_pure_bind]
  exact given.bind fun _ _ => .pure

theorem ite {condition : Prop} [Decidable condition]
    (yes : condition → Walks origin depth need c p) (no : ¬condition → Walks origin depth need c q)
    : Walks origin depth need c (if condition then p else q) := by
  split
  · exact yes ‹_›
  · exact no ‹_›

-----------------------------------------------------------------------------------------
-- Elementary parsers
-----------------------------------------------------------------------------------------

/-- A run that is known to succeed. -/
theorem succeeds {a : α} (run : p c = .ok (a, m)) (leads : c.Leads m)
    : Walks origin depth need c p where
  leads := by
    intro b c' again
    obtain ⟨rfl, rfl⟩ := Prod.mk.inj (Except.ok.inj (run.symm.trans again))
    exact leads
  sheltered := by
    intro sound roomy offset again
    cases run.symm.trans again

/-- A run that is known to fail. -/
theorem failing {error : SyntaxError} (run : p c = .error error)
    (shallow : c.Sound origin → ∀ offset, error ≠ .nestingTooDeep offset)
    : Walks origin depth need c p where
  leads := by
    intro a c' again
    cases run.symm.trans again
  sheltered := by
    intro sound roomy offset again
    exact shallow sound offset (Except.error.inj (run.symm.trans again))

theorem unexpected {expected : String}
    : Walks origin depth need c (Parser.unexpected expected : Parser α) :=
  .failing rfl fun sound => sound.unexpected_ne_nestingTooDeep expected

theorem endOfInput {expected : String}
    : Walks origin depth need c (Parser.endOfInput expected : Parser α) :=
  .failing rfl fun sound => sound.endOfInput_ne_nestingTooDeep expected

/-- A fault that cut the tokens short is none of nesting. -/
theorem fault {error : SyntaxError} (cut : c.fault = some error)
    : Walks origin depth need c (throw error : Parser α) :=
  .failing rfl fun sound offset same => sound.fault_ne_nestingTooDeep offset (same ▸ cut)

/-- Where no level is left there is no room for any. -/
theorem tooDeep
    : Walks origin 0 (need + 1) c (Grammar.tooDeep : Parser α) where
  leads := by
    intro a c' run
    cases tooDeep_ok.mp run
  sheltered := by
    intro sound roomy
    simp [Cursor.Roomy] at roomy

theorem advance
    : Walks origin depth need c Parser.advance :=
  .succeeds rfl (.single (.advance c))

theorem advanceIf {condition : Bool}
    : Walks origin depth need c (Parser.advanceIf condition) :=
  .ite (fun _ => advance) fun _ => .pure

theorem reread {reading : SlashReading}
    : Walks origin depth need c (Parser.reread reading) :=
  .succeeds rfl (.single (.reread c reading))

theorem rereadAt {kind : TokenKind} {reading : SlashReading}
    : Walks origin depth need c (Parser.rereadAt kind reading) :=
  .look (.ite (fun _ => reread) fun _ => .pure)

theorem eat {text : String}
    : Walks origin depth need c (Parser.eat text) := by
  by_cases here : c.sees text
  · exact .succeeds (if_pos here) (.single (.advance c))
  · exact .succeeds (if_neg here) .refl

theorem expect {text : String}
    : Walks origin depth need c (Parser.expect text) := by
  by_cases here : c.sees text
  · exact .succeeds (if_pos here) (.single (.advance c))
  · exact .failing (if_neg here) fun sound => sound.unexpected_ne_nestingTooDeep text

theorem atClose {closing : String}
    : Walks origin depth need c (Parser.atClose closing) := by
  cases here : c.peek? with
  | some token => exact .succeeds (atClose_ok.mpr ⟨token, here, rfl, rfl⟩) .refl
  | none =>
      refine .failing ?_ fun sound => sound.endOfInput_ne_nestingTooDeep closing
      rw [Parser.atClose, here]

theorem start
    : Walks origin depth need c Parser.start := by
  cases here : c.peek? with
  | some token => exact .succeeds (start_ok.mpr ⟨token, here, rfl, rfl⟩) .refl
  | none =>
      refine .failing ?_ fun sound => sound.endOfInput_ne_nestingTooDeep "more input"
      rw [Parser.start, here]

theorem spanFrom {offset : Nat}
    : Walks origin depth need c (Parser.spanFrom offset) :=
  .succeeds rfl .refl

theorem extentFrom {offset first : Nat}
    : Walks origin depth need c (Parser.extentFrom offset first) :=
  .succeeds rfl .refl

theorem consumeSemicolon
    : Walks origin depth need c Parser.consumeSemicolon := by
  by_cases here : c.sees ";"
  · exact .succeeds (if_pos here) (.single (.advance c))
  cases next : c.peek? with
  | none => exact .succeeds (by rw [Parser.consumeSemicolon, if_neg here, next]) .refl
  | some token =>
      by_cases omitted : token.isPunctuator "\x7d" || token.newlineBefore
      · refine .succeeds (a := ()) ?_ .refl
        simp only [Parser.consumeSemicolon, if_neg here, next, if_pos omitted]
      · refine .failing ?_ fun sound => sound.unexpected_ne_nestingTooDeep "`;`"
        simp only [Parser.consumeSemicolon, if_neg here, next, if_neg omitted]

theorem markArrowEnd
    : Walks origin depth need c Parser.markArrowEnd :=
  .succeeds rfl (.single (.markArrowEnd c))

-----------------------------------------------------------------------------------------
-- Room behind a token
-----------------------------------------------------------------------------------------

/-- A run that is known to succeed, and what follows it. -/
theorem runs {a : α} (need' : Nat) (run : p c = .ok (a, m)) (leads : c.Leads m)
    (room : c.Sound origin → c.Roomy depth need → m.Roomy depth need')
    (rest : Walks origin depth need' m (f a))
    : Walks origin depth need c (p >>= f) := by
  have first : Walks origin depth need c p := .succeeds run leads
  refine first.bind_room need' (fun b m' again => ?_) fun b m' again => ?_
  all_goals obtain ⟨rfl, rfl⟩ := Prod.mk.inj (Except.ok.inj (run.symm.trans again))
  · exact room
  · exact rest

/-- Behind a token that is moved past there is room for three levels. -/
theorem past {f : Unit → Parser β} (space : c.Spacious origin need)
    (rest : Walks origin depth 3 c.advance (f ()))
    : Walks origin depth need c (Parser.advance >>= f) :=
  .runs 3 rfl (.single (.advance c)) (space depth) rest

/-- A token that may be at the cursor; if it is there is room for three levels behind it. -/
theorem pastEaten {text : String} {f : Bool → Parser β}
    (yes : Walks origin depth 3 c.advance (f true)) (no : Walks origin depth need c (f false))
    : Walks origin depth need c (Parser.eat text >>= f) := by
  by_cases here : c.sees text
  · exact .runs 3 (if_pos here) (.single (.advance c)) (Cursor.Spacious.of_sees here depth) yes
  · exact .runs need (if_neg here) .refl (fun _ roomy => roomy) no

theorem pastExpected {text : String} {f : Unit → Parser β}
    (rest : Walks origin depth 3 c.advance (f ()))
    : Walks origin depth need c (Parser.expect text >>= f) := by
  refine expect.bind_room 3 (fun _ m run sound roomy => ?_) fun _ m run => ?_
  all_goals obtain ⟨sees, rfl⟩ := expect_ok.mp run
  · exact Cursor.Spacious.of_sees sees depth sound roomy
  · exact rest

/-- Where a construct must begin there is a token. -/
theorem begin {f : Nat → Parser β}
    (rest : ∀ token, c.peek? = some token → Walks origin depth need c (f token.span.start))
    : Walks origin depth need c (Parser.start >>= f) := by
  refine start.bind_room need (fun _ m run sound roomy => ?_) fun _ m run => ?_
  all_goals obtain ⟨token, here, rfl, rfl⟩ := start_ok.mp run
  · exact roomy
  · exact rest token here

-----------------------------------------------------------------------------------------
-- Optional and repeated items
-----------------------------------------------------------------------------------------

theorem onlyIf {condition : Bool} (given : Walks origin depth need c p)
    : Walks origin depth need c (Parser.onlyIf condition p) :=
  .ite (fun _ => given.map) fun _ => .pure

section Items

variable {item : Parser α}

theorem after? {text : String} (each : Walks origin depth 3 c.advance item)
    : Walks origin depth need c (Parser.after? text item) :=
  .pastEaten each.onlyIf .pure

variable (each : ∀ c, Walks origin depth need c item)

include each

theorem itemThenComma (c : Cursor)
    : Walks origin depth need c (Parser.itemThenComma item) :=
  (each c).bind fun _ _ => eat.bind fun _ _ => .ite (fun _ => .pure) fun _ => .pure

end Items

section Rounds

variable {round : Parser (Round α)} (each : ∀ c, Walks origin depth need c round)

include each

theorem rounds
    : Walks origin depth need c (Parser.rounds round) := by
  have upTo (fuel : Nat) (c : Cursor) : Walks origin depth need c (roundsUpTo round fuel) := by
    induction fuel generalizing c with
    | zero => exact .pure
    | succ fuel ih =>
        refine (each c).bind fun found m => ?_
        cases found with
        | stop => exact .pure
        | last item => exact .pure
        | more item => exact (ih m).bind fun _ _ => .pure
  exact ⟨(upTo _ c).leads, (upTo _ c).sheltered⟩

theorem unlessClosed {closing : String} (c : Cursor)
    : Walks origin depth need c (Parser.unlessClosed closing round) :=
  atClose.bind fun _ m => .ite (fun _ => .pure) fun _ => each m

end Rounds

section Lists

variable {item : Parser α} (each : ∀ c, Walks origin depth need c item)

include each

theorem itemsUntil {closing : String}
    : Walks origin depth need c (Parser.itemsUntil closing item) :=
  (rounds (unlessClosed fun c => (each c).map)).bind fun _ _ => advance.bind fun _ _ => .pure

theorem commaSeparated
    : Walks origin depth need c (Parser.commaSeparated item) :=
  .rounds (itemThenComma each)

theorem commaListUntil {closing : String}
    : Walks origin depth need c (Parser.commaListUntil closing item) :=
  (rounds (unlessClosed (itemThenComma each))).bind fun _ _ => expect.bind fun _ _ => .pure

end Lists

end Parser.Walks

end Grammar

end ScriptStyle
