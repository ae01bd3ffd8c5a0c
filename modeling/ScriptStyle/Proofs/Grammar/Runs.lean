import ScriptStyle.Grammar.Depth

/-!
What it takes for a parser to succeed. Each fact turns the success of a combined or elementary
parser into the successes and cursor moves that it is made of.
-/

namespace ScriptStyle.Grammar.Parser

variable {α β : Type} {c c' : Cursor}

-----------------------------------------------------------------------------------------
-- Combinations
-----------------------------------------------------------------------------------------

theorem bind_ok {p : Parser α} {f : α → Parser β} {b : β}
    : (p >>= f) c = .ok (b, c') ↔ ∃ a m, p c = .ok (a, m) ∧ f a m = .ok (b, c') := by
  change StateT.bind p f c = _ ↔ _
  cases run : p c with
  | error fault => simp [StateT.bind, bind, Except.bind, run]
  | ok result =>
      obtain ⟨a, m⟩ := result
      simp only [StateT.bind, bind, Except.bind, run, Except.ok.injEq, Prod.mk.injEq]
      constructor
      · exact fun next => ⟨a, m, ⟨rfl, rfl⟩, next⟩
      · rintro ⟨_, _, ⟨rfl, rfl⟩, next⟩
        exact next

theorem pure_ok {a b : α}
    : (pure a : Parser α) c = .ok (b, c') ↔ a = b ∧ c = c' := by
  change (Except.ok (a, c) : Except SyntaxError (α × Cursor)) = _ ↔ _
  simp

theorem get_ok {current : Cursor}
    : (get : Parser Cursor) c = .ok (current, c') ↔ c = current ∧ c = c' := by
  change (Except.ok (c, c) : Except SyntaxError (Cursor × Cursor)) = _ ↔ _
  simp

theorem map_ok {p : Parser α} {f : α → β} {b : β}
    : (f <$> p) c = .ok (b, c') ↔ ∃ a, p c = .ok (a, c') ∧ f a = b := by
  change StateT.map f p c = _ ↔ _
  cases run : p c with
  | error fault => simp [StateT.map, bind, Except.bind, run]
  | ok result =>
      simp only [StateT.map, bind, Except.bind, run, pure, Except.pure, Except.ok.injEq,
        Prod.ext_iff]
      constructor
      · rintro ⟨value, moved⟩
        exact ⟨result.1, ⟨rfl, moved⟩, value⟩
      · rintro ⟨a, ⟨rfl, moved⟩, value⟩
        exact ⟨value, moved⟩

theorem ite_ok {P : Prop} [Decidable P] {p q : Parser α} {a : α}
    : (if P then p else q) c = .ok (a, c')
      ↔ (P ∧ p c = .ok (a, c')) ∨ (¬P ∧ q c = .ok (a, c')) := by
  split <;> simp_all

-----------------------------------------------------------------------------------------
-- Moves and tests
-----------------------------------------------------------------------------------------

theorem advance_ok {a : Unit}
    : advance c = .ok (a, c') ↔ c.advance = c' := by
  simp [advance]

theorem reread_ok {reading : SlashReading} {a : Unit}
    : reread reading c = .ok (a, c') ↔ c.reread reading = c' := by
  simp [reread]

theorem markArrowEnd_ok {a : Unit}
    : markArrowEnd c = .ok (a, c')
      ↔ { c with arrowEnds := c.lastIndex :: c.arrowEnds } = c' := by
  simp [markArrowEnd]

theorem eat_ok {text : String} {eaten : Bool}
    : eat text c = .ok (eaten, c')
      ↔ (eaten = true ∧ c.sees text ∧ c.advance = c') ∨ (eaten = false ∧ ¬c.sees text ∧ c = c') := by
  simp only [eat]
  split <;> cases eaten <;> simp_all

theorem expect_ok {text : String} {a : Unit}
    : expect text c = .ok (a, c') ↔ c.sees text ∧ c.advance = c' := by
  simp only [expect]
  split <;> simp_all

theorem advanceIf_ok {condition : Bool} {a : Unit}
    : advanceIf condition c = .ok (a, c')
      ↔ (condition ∧ c.advance = c') ∨ (¬condition ∧ c = c') := by
  rw [advanceIf, ite_ok, advance_ok, pure_ok]
  simp

theorem rereadAt_ok {kind : TokenKind} {reading : SlashReading} {a : Unit}
    : rereadAt kind reading c = .ok (a, c')
      ↔ (c.atKind kind ∧ c.reread reading = c') ∨ (¬c.atKind kind ∧ c = c') := by
  simp only [rereadAt, bind_ok, get_ok, ite_ok, reread_ok, pure_ok, true_and]
  constructor
  · rintro ⟨_, _, ⟨rfl, rfl⟩, run⟩
    exact run
  · exact fun run => ⟨_, _, ⟨rfl, rfl⟩, run⟩

theorem onlyIf_ok {condition : Bool} {item : Parser α} {found : Option α}
    : onlyIf condition item c = .ok (found, c')
      ↔ (condition ∧ ∃ a, item c = .ok (a, c') ∧ some a = found)
        ∨ (¬condition ∧ none = found ∧ c = c') := by
  rw [onlyIf, ite_ok, map_ok, pure_ok]

theorem after?_ok {text : String} {item : Parser α} {found : Option α}
    : after? text item c = .ok (found, c')
      ↔ (c.sees text ∧ ∃ a, item c.advance = .ok (a, c') ∧ some a = found)
        ∨ (¬c.sees text ∧ none = found ∧ c = c') := by
  simp only [after?, bind_ok, eat_ok, onlyIf_ok]
  constructor
  · rintro ⟨_, _, ⟨rfl, sees, rfl⟩ | ⟨rfl, sees, rfl⟩, rest⟩ <;> simp_all
  · rintro (⟨sees, rest⟩ | ⟨sees, rest⟩)
    · exact ⟨true, _, .inl ⟨rfl, sees, rfl⟩, .inl ⟨rfl, rest⟩⟩
    · exact ⟨false, _, .inr ⟨rfl, sees, rfl⟩, .inr ⟨by decide, rest⟩⟩

theorem atClose_ok {closing : String} {closed : Bool}
    : atClose closing c = .ok (closed, c')
      ↔ ∃ token, c.peek? = some token ∧ token.isPunctuator closing = closed ∧ c = c' := by
  simp only [atClose]
  split <;> simp_all

theorem unlessClosed_ok {closing : String} {round : Parser (Round α)} {found : Round α}
    : unlessClosed closing round c = .ok (found, c')
      ↔ ∃ token, (found = .stop ∧ c = c' ∧ c.peek? = some token ∧ token.isPunctuator closing)
          ∨ ((c.peek? = some token ∧ ¬token.isPunctuator closing) ∧ round c = .ok (found, c')) := by
  simp only [unlessClosed, bind_ok, atClose_ok, ite_ok, pure_ok]
  constructor
  · rintro ⟨_, _, ⟨token, here, rfl, rfl⟩, ⟨closes, rfl, rfl⟩ | ⟨notClosed, run⟩⟩
    · exact ⟨token, .inl ⟨rfl, rfl, here, closes⟩⟩
    · exact ⟨token, .inr ⟨⟨here, notClosed⟩, run⟩⟩
  · rintro ⟨token, ⟨rfl, rfl, here, closes⟩ | ⟨⟨here, notClosed⟩, run⟩⟩
    · exact ⟨_, _, ⟨token, here, rfl, rfl⟩, .inl ⟨closes, rfl, rfl⟩⟩
    · exact ⟨_, _, ⟨token, here, rfl, rfl⟩, .inr ⟨notClosed, run⟩⟩

theorem start_ok {offset : Nat}
    : start c = .ok (offset, c')
      ↔ ∃ token, c.peek? = some token ∧ token.span.start = offset ∧ c = c' := by
  simp only [start]
  split <;> simp_all

theorem spanFrom_ok {offset : Nat} {span : Span}
    : spanFrom offset c = .ok (span, c') ↔ ⟨offset, max c.lastStop offset⟩ = span ∧ c = c' := by
  simp [spanFrom]

theorem extentFrom_ok {offset first : Nat} {extent : Extent}
    : extentFrom offset first c = .ok (extent, c')
      ↔ ⟨⟨offset, max c.lastStop offset⟩, ⟨first, c.lastIndex⟩⟩ = extent ∧ c = c' := by
  simp [extentFrom]

/-- Whether a statement may end without a semicolon of its own at a cursor. -/
def endsFreely (c : Cursor) : Prop :=
  ∀ token, c.peek? = some token → token.isPunctuator "\x7d" ∨ token.newlineBefore

theorem consumeSemicolon_ok {a : Unit}
    : consumeSemicolon c = .ok (a, c')
      ↔ (c.sees ";" ∧ c.advance = c') ∨ (¬c.sees ";" ∧ endsFreely c ∧ c = c') := by
  simp only [consumeSemicolon, endsFreely]
  split
  · simp_all
  · split
    · simp_all
    · split <;> simp_all

theorem unexpected_ok {expected : String} {a : α}
    : unexpected expected c = .ok (a, c') ↔ False := by
  simp [unexpected]

theorem endOfInput_ok {expected : String} {a : α}
    : endOfInput expected c = .ok (a, c') ↔ False := by
  simp [endOfInput]

theorem tooDeep_ok {a : α}
    : tooDeep c = .ok (a, c') ↔ False := by
  simp [tooDeep]

end ScriptStyle.Grammar.Parser
