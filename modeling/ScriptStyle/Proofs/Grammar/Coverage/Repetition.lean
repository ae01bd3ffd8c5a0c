import ScriptStyle.Proofs.Grammar.Coverage.Basic

/-!
Coverage by the elementary parsers and by repetitions. Each round of a repetition that goes on
takes a token, so the bound on the number of rounds is never reached.
-/

namespace ScriptStyle.Grammar

variable {α : Type} {origin : Scanner} {c m c' : Cursor} {parts others : List Shown}

-----------------------------------------------------------------------------------------
-- Parts that end before the last token
-----------------------------------------------------------------------------------------

/-- From one cursor to another the shown parts are read, and all constructs among them end
before the last token that is read. -/
structure Held (origin : Scanner) (c : Cursor) (parts : List Shown) (c' : Cursor) : Prop
    extends Covered origin c parts c' where
  enclosed : Enclosed origin parts c'

/-- Nothing is enclosed where nothing is shown. -/
theorem Covered.held (covered : Covered origin c [] c')
    : Held origin c [] c' :=
  ⟨covered, .nil⟩

/-- A cursor that keeps its place in the tokens reads nothing. -/
theorem Ledger.of_behind (moved : c'.Sound origin)
    (behind : c'.behind = c.behind) (ended : c.ahead = [] → c'.ahead = [] ∧ c'.fault = c.fault)
    (lastIndex : c'.lastIndex = c.lastIndex) (lastStop : c'.lastStop = c.lastStop)
    (offset_le : c.offset ≤ c'.offset)
    : Ledger origin c [] c' := by
  refine ⟨moved, behind ▸ List.prefix_rfl, fun none => ⟨(ended none).1, behind, (ended none).2⟩,
    lastIndex.ge, lastStop.ge, offset_le, fun key => by simp [Cursor.read, behind], List.nodup_nil,
    by simp, ?_, by simp⟩
  intro tokens complete index
  rw [if_neg (by simp only [Cursor.index, behind]; omega)]
  rfl

-----------------------------------------------------------------------------------------
-- Plain tokens
-----------------------------------------------------------------------------------------

theorem Cursor.sees_eq_true {text : String}
    : c.sees text = true ↔ ∃ token, c.peek? = some token ∧ token.isTerminal text := by
  simp [Cursor.sees, Option.any_eq_true]

namespace Cursor

variable {token : Token}

/-- A token that is plain for all but the text of punctuators. -/
theorem plain_of_token (here : c.peek? = some token) (literal : token.literal? = none)
    (arrow : token.isPunctuator "=>" = false) (semicolon : token.isPunctuator ";" = false)
    : c.Plain where
  noArrow := by simp [atArrow, here, arrow]
  noLiteral other there := by rwa [Option.some.inj (there.symm.trans here)]
  noSemicolon other there := by rwa [Option.some.inj (there.symm.trans here)]

theorem plain_of_punctuator (here : c.peek? = some token) (kind : token.kind = .punctuator)
    (arrow : token.text ≠ "=>") (semicolon : token.text ≠ ";")
    : c.Plain :=
  plain_of_token here (by simp [Token.literal?, kind]) (by simp [Token.isPunctuator, arrow])
    (by simp [Token.isPunctuator, semicolon])

theorem plain_of_kind (here : c.peek? = some token) (kind : token.kind.isPlain)
    : c.Plain := by
  cases known : token.kind <;> simp_all [TokenKind.isPlain]
  all_goals
    exact plain_of_token here (by simp [Token.literal?, known]) (by simp [Token.isPunctuator, known])
      (by simp [Token.isPunctuator, known])

/-- A terminal other than an arrow or a semicolon is plain. -/
theorem plain_of_sees {text : String} (other : text ≠ "=>" ∧ text ≠ ";") (here : c.sees text)
    : c.Plain := by
  obtain ⟨token, there, terminal⟩ := Cursor.sees_eq_true.mp here
  simp only [Token.isTerminal, Bool.and_eq_true, Bool.or_eq_true, beq_iff_eq] at terminal
  obtain ⟨kind, rfl⟩ := terminal
  rcases kind with kind | kind
  · exact plain_of_punctuator there kind other.1 other.2
  · exact plain_of_kind there (by rw [kind]; rfl)

end Cursor

namespace Cursor.Sound

variable {token : Token}

/-- Moving past a plain token shows nothing. -/
theorem advance_held (sound : c.Sound origin) (plain : c.Plain)
    : Held origin c [] c.advance := by
  cases here : c.peek? with
  | none =>
      rw [Cursor.advance_of_none here]
      exact (Covered.refl sound).held
  | some token =>
      refine Covered.held ⟨sound.advance_ledger here ?_ rfl ?_ (by simp),
        fun arrow => absurd arrow plain.noArrow⟩
      · rw [plain.noLiteral token here]
        rfl
      · intro tokens
        rw [plain.noSemicolon token here]
        rfl

theorem reread_held (sound : c.Sound origin) (reading : SlashReading)
    : Held origin c [] (c.reread reading) := by
  by_cases slash : ∃ token, c.peek? = some token ∧ token.startsWithSlash
  · obtain ⟨token, here, slash⟩ := slash
    have moved : (c.reread reading).Sound origin := sound.reread
    obtain ⟨scanner, guess, after, trail, read, equal⟩ := sound.reread_slash here slash reading
    have stuck : ¬c.atArrow := by
      intro arrow
      simp only [Cursor.atArrow, here, Option.any_some, Token.isPunctuator, Bool.and_eq_true,
        beq_iff_eq] at arrow
      simp [Token.startsWithSlash, arrow] at slash
    have onward : c.offset ≤ (c.reread reading).offset := by
      cases there : (c.reread reading).peek? with
      | none =>
          rw [show (c.reread reading).offset = c.sourceLength by
            rw [Cursor.offset, there, equal]]
          exact sound.lastStop_le_offset.2
      | some again => rw [offset_eq here, offset_eq there, sound.reread_start here there]
    refine Covered.held ⟨Ledger.of_behind moved (by rw [equal]) ?_ (by rw [equal])
      (by rw [equal]) onward, fun arrow => absurd arrow stuck⟩
    intro none
    simp [Cursor.peek?, none] at here
  · rw [Cursor.reread_of_not_slash fun token here slashed => slash ⟨token, here, slashed⟩]
    exact (Covered.refl sound).held

theorem markArrowEnd_held (sound : c.Sound origin)
    : Held origin c [] { c with arrowEnds := c.lastIndex :: c.arrowEnds } := by
  have marked : ({ c with arrowEnds := c.lastIndex :: c.arrowEnds } : Cursor).Sound origin :=
    ⟨⟨sound.trail, sound.length, sound.last⟩, sound.significant⟩
  exact Covered.held ⟨Ledger.of_behind marked rfl (fun none => ⟨none, rfl⟩) rfl rfl
    (Nat.le_refl _), id⟩

end Cursor.Sound

/-- The token behind parts encloses them. -/
theorem Covered.close {token : Token} (covered : Covered origin c parts m)
    (here : m.peek? = some token) (plain : m.Plain)
    : Held origin c parts m.advance := by
  have last := (covered.sound.advance_held plain).toCovered
  have moved := covered.trans last
  rw [List.append_nil] at moved
  refine ⟨moved, fun tokens complete index member => ?_⟩
  rw [Cursor.advance_lastIndex here]
  rcases List.mem_append.mp member with ends | semicolon
  · exact (covered.within index ends).2
  · exact ((covered.mem_semicolons (complete.of_ledger last.toLedger)).mp semicolon).2.1

namespace Held

theorem refl (sound : c.Sound origin)
    : Held origin c [] c :=
  ⟨.refl sound, .nil⟩

theorem trans (first : Held origin c parts m) (second : Held origin m others c')
    : Held origin c (parts ++ others) c' :=
  ⟨first.toCovered.trans second.toCovered,
    (first.enclosed.mono second.toLedger).append second.enclosed⟩

/-- Tokens that show nothing may follow. -/
theorem skip (first : Held origin c parts m) (second : Held origin m [] c')
    : Held origin c parts c' := by
  simpa using first.trans second

/-- Past an arrow parts are read together with those before it, but not from an arrow on. -/
theorem past_arrow (first : Held origin c parts m) (other : ¬c.atArrow) (arrow : m.sees "=>")
    : Held origin c parts m.advance := by
  obtain ⟨token, here, terminal⟩ := Cursor.sees_eq_true.mp arrow
  simp only [Token.isTerminal, Bool.and_eq_true, Bool.or_eq_true, beq_iff_eq] at terminal
  have literal : token.literal? = none := by
    rcases terminal.1 with kind | kind <;> simp [Token.literal?, kind]
  have semicolon : token.isPunctuator ";" = false := by
    simp [Token.isPunctuator, terminal.2]
  have second : Ledger origin m [] m.advance :=
    first.sound.advance_ledger here (by rw [literal]; rfl) rfl (by simp [semicolon]) (by simp)
  have moved := first.toLedger.trans second
  rw [List.append_nil] at moved
  exact ⟨⟨moved, fun stuck => absurd stuck other⟩, first.enclosed.mono second⟩

theorem congr (held : Held origin c parts c') (same : SameLedger parts others)
    : Held origin c others c' :=
  ⟨held.toCovered.congr same, held.enclosed.congr same⟩

theorem perm (held : Held origin c parts c') (same : parts.Perm others)
    : Held origin c others c' :=
  held.congr (.of_perm same)

end Held

-----------------------------------------------------------------------------------------
-- Elementary parsers
-----------------------------------------------------------------------------------------

namespace Parser

variable {text closing : String} {a : Unit}

theorem expect_held (other : text ≠ "=>" ∧ text ≠ ";") (sound : c.Sound origin)
    (run : expect text c = .ok (a, c'))
    : Held origin c [] c' ∧ c.offset < c'.lastStop := by
  obtain ⟨here, rfl⟩ := expect_ok.mp run
  obtain ⟨token, found, -⟩ := Cursor.sees_eq_true.mp here
  exact ⟨sound.advance_held (Cursor.plain_of_sees other here),
    (sound.offset_lt_advance found).1⟩

theorem eat_held {eaten : Bool} (other : text ≠ "=>" ∧ text ≠ ";") (sound : c.Sound origin)
    (run : eat text c = .ok (eaten, c'))
    : Held origin c [] c' ∧ (eaten → c.offset < c'.lastStop) := by
  rcases eat_ok.mp run with ⟨-, here, rfl⟩ | ⟨rfl, -, rfl⟩
  · obtain ⟨token, found, -⟩ := Cursor.sees_eq_true.mp here
    exact ⟨sound.advance_held (Cursor.plain_of_sees other here),
      fun _ => (sound.offset_lt_advance found).1⟩
  · exact ⟨.refl sound, fun eaten => by cases eaten⟩

theorem advanceIf_held {condition : Bool} (sound : c.Sound origin)
    (run : advanceIf condition c = .ok (a, c')) (plain : condition → c.Plain)
    : Held origin c [] c' := by
  rcases advanceIf_ok.mp run with ⟨holds, rfl⟩ | ⟨-, rfl⟩
  · exact sound.advance_held (plain holds)
  · exact .refl sound

theorem rereadAt_held {kind : TokenKind} {reading : SlashReading} (sound : c.Sound origin)
    (run : rereadAt kind reading c = .ok (a, c'))
    : Held origin c [] c' := by
  rcases rereadAt_ok.mp run with ⟨-, rfl⟩ | ⟨-, rfl⟩
  · exact sound.reread_held reading
  · exact .refl sound

/-- An item that may be absent covers what is shown of it. -/
theorem after?_held {item : Parser α} {found : Option α} {shown : α → List Shown}
    (other : text ≠ "=>" ∧ text ≠ ";")
    (each : ∀ {c c' : Cursor} {a : α}, c.Sound origin → item c = .ok (a, c')
      → Held origin c (shown a) c')
    (sound : c.Sound origin) (run : after? text item c = .ok (found, c'))
    : Held origin c ((found.map shown).getD []) c' := by
  rcases after?_ok.mp run with ⟨here, a, item, rfl⟩ | ⟨-, rfl, rfl⟩
  · have before := sound.advance_held (Cursor.plain_of_sees other here)
    exact before.trans (each before.sound item)
  · exact .refl sound

-----------------------------------------------------------------------------------------
-- Repetitions
-----------------------------------------------------------------------------------------

namespace Round

/-- The shown parts of what a round finds. -/
def shown (parts : α → List Shown) : Round α → List Shown
  | stop => []
  | last item | more item => parts item

/-- Whether another round follows. -/
def goesOn : Round α → Bool
  | stop | last _ => false
  | more _ => true

end Round

/-- Items found by a round that is repeated until it stops, however long that takes. -/
inductive Rounds (round : Parser (Round α)) : Cursor → List α → Cursor → Prop
  | stop {c c' : Cursor} (run : round c = .ok (.stop, c')) : Rounds round c [] c'
  | last {c c' : Cursor} {item : α} (run : round c = .ok (.last item, c'))
    : Rounds round c [item] c'
  | more {c m c' : Cursor} {item : α} {items : List α} (run : round c = .ok (.more item, m))
    (rest : Rounds round m items c') : Rounds round c (item :: items) c'

variable {round : Parser (Round α)} {items : List α}

/-- What is known of each round of a repetition: what it covers, and that it takes a token
if another round follows. -/
structure Round.Covers (origin : Scanner) (round : Parser (Round α)) (one : α → List Shown)
    : Prop where
  covered
    : ∀ {c c' : Cursor} {found : Round α}, c.Sound origin
      → round c = .ok (found, c') → Covered origin c (found.shown one) c'
  rises
    : ∀ {c c' : Cursor} {found : Round α}, c.Sound origin → round c = .ok (found, c')
      → found.goesOn → c.offset < c'.lastStop

/-- The fuel of a repetition is enough when each round takes a token. -/
theorem rounds_ok {one : α → List Shown} (each : Round.Covers origin round one)
    (sound : c.Sound origin) (run : rounds round c = .ok (items, c'))
    : Rounds round c items c' := by
  simp only [rounds] at run
  have enough : c.remaining < c.remaining + 1 := Nat.lt_succ_self _
  generalize c.remaining + 1 = fuel at run enough
  induction fuel generalizing c items with
  | zero => omega
  | succ fuel ih =>
      obtain ⟨found, m, one, run⟩ := bind_ok.mp run
      cases found with
      | stop =>
          obtain ⟨rfl, rfl⟩ := pure_ok.mp run
          exact .stop one
      | last item =>
          obtain ⟨rfl, rfl⟩ := pure_ok.mp run
          exact .last one
      | more item =>
          obtain ⟨rest, m', others, run⟩ := bind_ok.mp run
          obtain ⟨rfl, rfl⟩ := pure_ok.mp run
          have moved := (each.covered sound one).sound
          have rises := each.rises sound one rfl
          have inside := moved.lastStop_le_offset
          have length : m.sourceLength = c.sourceLength := by
            rw [moved.length, sound.length]
          refine .more one (ih moved others ?_)
          simp only [Cursor.remaining] at enough ⊢
          omega

/-- Parts that are read round by round are read together. -/
theorem Rounds.covered {one : α → List Shown} (repeated : Rounds round c items c')
    (each : Round.Covers origin round one) (sound : c.Sound origin)
    : Covered origin c (items.flatMap one) c' := by
  induction repeated with
  | stop run => exact each.covered sound run
  | last run =>
      rw [List.flatMap_singleton]
      exact each.covered sound run
  | more run _ ih =>
      rw [List.flatMap_cons]
      have first := each.covered sound run
      exact first.trans (ih first.sound)

/-- Rounds that enclose their parts enclose them together. -/
theorem Rounds.enclosed {one : α → List Shown} (repeated : Rounds round c items c')
    (each : Round.Covers origin round one)
    (enclosed : ∀ {c c' : Cursor} {found : Round α}, c.Sound origin → round c = .ok (found, c')
      → Enclosed origin (found.shown one) c')
    (sound : c.Sound origin)
    : Enclosed origin (items.flatMap one) c' := by
  induction repeated with
  | stop run => exact .nil
  | last run => simpa [Round.shown] using enclosed sound run
  | more run rest ih =>
      have first := each.covered sound run
      have later := rest.covered each first.sound
      exact ((enclosed sound run).mono later.toLedger).append (ih first.sound)

-----------------------------------------------------------------------------------------
-- Lists of items
-----------------------------------------------------------------------------------------

/-- What is known of an item of a list. -/
def ItemCovers (origin : Scanner) (item : Parser α) (one : α → List Shown) : Prop :=
  ∀ {c c' : Cursor} {found : α}, c.Sound origin → item c = .ok (found, c')
    → Covered origin c (one found) c'

variable {item : Parser α} {one : α → List Shown}

/-- A round that stops in front of a closing punctuator covers what it covers elsewhere. -/
theorem unlessClosed_covers (each : Round.Covers origin round one)
    : Round.Covers origin (unlessClosed closing round) one where
  covered := by
    intro c c' found sound run
    obtain ⟨-, ⟨rfl, rfl, -⟩ | ⟨-, run⟩⟩ := unlessClosed_ok.mp run
    · exact .refl sound
    · exact each.covered sound run
  rises := by
    intro c c' found sound run goesOn
    obtain ⟨-, ⟨rfl, -⟩ | ⟨-, run⟩⟩ := unlessClosed_ok.mp run
    · cases goesOn
    · exact each.rises sound run goesOn

/-- A round that gives all it finds until a closing punctuator. -/
theorem untilClose_covers (each : ItemCovers origin item one)
    (rises : ∀ {c c' : Cursor} {found : α}, c.Sound origin → item c = .ok (found, c')
      → c.offset < c'.lastStop)
    : Round.Covers origin (unlessClosed closing (Round.more <$> item)) one := by
  refine unlessClosed_covers ⟨fun sound run => ?_, fun sound run _ => ?_⟩
  all_goals obtain ⟨value, found, rfl⟩ := map_ok.mp run
  · exact each sound found
  · exact rises sound found

/-- A repetition up to a closing punctuator stops in front of it. -/
theorem Rounds.atClose (repeated : Rounds (unlessClosed closing (Round.more <$> item)) c items c')
    : ∃ token, c'.peek? = some token ∧ token.isPunctuator closing := by
  induction repeated with
  | stop run =>
      obtain ⟨token, ⟨-, rfl, here, closes⟩ | ⟨-, run⟩⟩ := unlessClosed_ok.mp run
      · exact ⟨token, here, closes⟩
      · obtain ⟨value, -, equal⟩ := map_ok.mp run
        cases equal
  | last run =>
      obtain ⟨token, ⟨equal, -⟩ | ⟨-, run⟩⟩ := unlessClosed_ok.mp run
      · cases equal
      · obtain ⟨value, -, equal⟩ := map_ok.mp run
        cases equal
  | more _ _ ih => exact ih

/-- Items up to a closing punctuator are enclosed by it. -/
theorem itemsUntil_held (other : closing ≠ "=>" ∧ closing ≠ ";")
    (each : ItemCovers origin item one)
    (rises : ∀ {c c' : Cursor} {found : α}, c.Sound origin → item c = .ok (found, c')
      → c.offset < c'.lastStop)
    (sound : c.Sound origin) (run : itemsUntil closing item c = .ok (items, c'))
    : Held origin c (items.flatMap one) c' ∧ c.offset < c'.lastStop := by
  simp only [itemsUntil, bind_ok, pure_ok, advance_ok] at run
  obtain ⟨found, m, run, -, _, rfl, rfl, rfl⟩ := run
  have repeated := rounds_ok (untilClose_covers each rises) sound run
  have covered := repeated.covered (untilClose_covers each rises) sound
  obtain ⟨token, here, closes⟩ := repeated.atClose
  have plain : m.Plain := by
    simp only [Token.isPunctuator, Bool.and_eq_true, beq_iff_eq] at closes
    exact Cursor.plain_of_punctuator here closes.1 (closes.2 ▸ other.1) (closes.2 ▸ other.2)
  refine ⟨covered.close here plain, ?_⟩
  exact Nat.lt_of_le_of_lt covered.offset_le (covered.sound.offset_lt_advance here).1

/-- A round that goes on after a comma takes that comma. -/
theorem itemThenComma_covers (each : ItemCovers origin item one)
    : Round.Covers origin (itemThenComma item) one where
  covered := by
    intro c c' found sound run
    simp only [itemThenComma, bind_ok, ite_ok, pure_ok] at run
    obtain ⟨value, m, run, eaten, _, comma, ⟨-, rfl, rfl⟩ | ⟨-, rfl, rfl⟩⟩ := run
    all_goals
      have first := each sound run
      simpa [Round.shown] using first.trans (eat_held (by decide) first.sound comma).1.toCovered
  rises := by
    intro c c' found sound run goesOn
    simp only [itemThenComma, bind_ok, ite_ok, pure_ok] at run
    obtain ⟨value, m, run, eaten, _, comma, ⟨taken, rfl, rfl⟩ | ⟨-, rfl, rfl⟩⟩ := run
    · have first := each sound run
      exact Nat.lt_of_le_of_lt first.offset_le ((eat_held (by decide) first.sound comma).2 taken)
    · cases goesOn

/-- Items with commas between them cover what each of them covers. -/
theorem commaSeparated_held
    (each : ∀ {c c' : Cursor} {found : α}, c.Sound origin → item c = .ok (found, c')
      → Held origin c (one found) c')
    (sound : c.Sound origin) (run : commaSeparated item c = .ok (items, c'))
    : Held origin c (items.flatMap one) c' := by
  have covers : Round.Covers origin (itemThenComma item) one :=
    itemThenComma_covers fun sound run => (each sound run).toCovered
  have repeated := rounds_ok covers sound run
  refine ⟨repeated.covered covers sound, repeated.enclosed covers ?_ sound⟩
  intro c c' found sound run
  simp only [itemThenComma, bind_ok, ite_ok, pure_ok] at run
  obtain ⟨value, m, run, eaten, _, comma, ⟨-, rfl, rfl⟩ | ⟨-, rfl, rfl⟩⟩ := run
  all_goals
    have first := each sound run
    exact first.enclosed.mono (eat_held (by decide) first.sound comma).1.toLedger

/-- What is known of an item where it begins is known of the first item. -/
theorem commaSeparated_first {P : α → Cursor → Prop}
    (each : ∀ {c c' : Cursor} {found : α}, c.Sound origin → item c = .ok (found, c')
      → Held origin c (one found) c' ∧ P found c)
    (sound : c.Sound origin) (run : commaSeparated item c = .ok (items, c'))
    : ∃ first, items.head? = some first ∧ P first c := by
  have covers : Round.Covers origin (itemThenComma item) one :=
    itemThenComma_covers fun sound run => (each sound run).1.toCovered
  have known {found : Round α} {c' : Cursor} (run : itemThenComma item c = .ok (found, c'))
      : ∃ value, (found = .more value ∨ found = .last value) ∧ P value c := by
    simp only [itemThenComma, bind_ok, ite_ok, pure_ok] at run
    obtain ⟨value, m, run, eaten, _, -, ⟨-, rfl, -⟩ | ⟨-, rfl, -⟩⟩ := run
    · exact ⟨value, .inl rfl, (each sound run).2⟩
    · exact ⟨value, .inr rfl, (each sound run).2⟩
  have rounds := rounds_ok covers sound run
  clear run
  cases rounds with
  | stop run =>
      obtain ⟨value, equal | equal, -⟩ := known run <;> cases equal
  | last run =>
      obtain ⟨value, equal | equal, holds⟩ := known run
      all_goals cases equal
      exact ⟨_, rfl, holds⟩
  | more run rest =>
      obtain ⟨value, equal | equal, holds⟩ := known run
      all_goals cases equal
      exact ⟨_, rfl, holds⟩

/-- What is known of an item where it ends is known of the last item at the end of the list. -/
theorem commaSeparated_last {P : α → Cursor → Prop}
    (each : ∀ {c c' : Cursor} {found : α}, c.Sound origin → item c = .ok (found, c')
      → Held origin c (one found) c' ∧ P found c')
    (sound : c.Sound origin) (run : commaSeparated item c = .ok (items, c'))
    : ∃ last, items.getLast? = some last ∧ P last c' := by
  have covers : Round.Covers origin (itemThenComma item) one :=
    itemThenComma_covers fun sound run => (each sound run).1.toCovered
  have rounds := rounds_ok covers sound run
  clear run
  induction rounds with
  | stop run =>
      simp only [itemThenComma, bind_ok, ite_ok, pure_ok] at run
      obtain ⟨value, m, -, eaten, _, -, ⟨-, stop, -⟩ | ⟨-, stop, -⟩⟩ := run <;> cases stop
  | @last c c' value run =>
      simp only [itemThenComma, bind_ok, ite_ok, pure_ok, eat_ok] at run
      obtain ⟨_, m, run, eaten, _, comma, ⟨-, stop, -⟩ | ⟨uneaten, same, rfl⟩⟩ := run
      · cases stop
      · obtain rfl := Round.last.inj same
        rcases comma with ⟨taken, -⟩ | ⟨-, -, rfl⟩
        · exact absurd taken uneaten
        · exact ⟨_, rfl, (each sound run).2⟩
  | @more c m c' value items run rest ih =>
      obtain ⟨last, found, known⟩ := ih (covers.covered sound run).sound
      exact ⟨last, by simp [List.getLast?_cons, found], known⟩

/-- Items with commas between them up to a closing punctuator are enclosed by it. -/
theorem commaListUntil_held (other : closing ≠ "=>" ∧ closing ≠ ";")
    (each : ItemCovers origin item one)
    (sound : c.Sound origin) (run : commaListUntil closing item c = .ok (items, c'))
    : Held origin c (items.flatMap one) c' ∧ c.offset < c'.lastStop := by
  have covers : Round.Covers origin (unlessClosed closing (itemThenComma item)) one :=
    unlessClosed_covers (itemThenComma_covers each)
  simp only [commaListUntil, bind_ok, pure_ok, expect_ok] at run
  obtain ⟨found, m, run, -, _, ⟨here, rfl⟩, rfl, rfl⟩ := run
  have covered := (rounds_ok covers sound run).covered covers sound
  obtain ⟨token, there, -⟩ := Cursor.sees_eq_true.mp here
  refine ⟨covered.close there (Cursor.plain_of_sees other here), ?_⟩
  exact Nat.lt_of_le_of_lt covered.offset_le (covered.sound.offset_lt_advance there).1

end Parser

end ScriptStyle.Grammar
