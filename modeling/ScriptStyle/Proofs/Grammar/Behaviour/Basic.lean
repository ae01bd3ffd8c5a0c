import ScriptStyle.Proofs.Grammar.Layout.Basic
import ScriptStyle.Proofs.Grammar.Shape.Basic
import ScriptStyle.Proofs.Scanner.Faults
import ScriptStyle.Proofs.Tree.Restricted

/-!
What parsers do at a cursor, whether they succeed or fail: a cursor moves on and what is given has
a property, or the error points into the source.
-/

namespace ScriptStyle.Grammar

variable {α β : Type} {source : String} {tokens : List Token} {c m c' : Cursor}

-----------------------------------------------------------------------------------------
-- Errors at a cursor
-----------------------------------------------------------------------------------------

namespace Cursor.Sound

theorem fault_pointsInto {error : SyntaxError} (sound : c.Sound (.ofSource source))
    (fault : c.fault = some error)
    : error.PointsInto source := by
  obtain ⟨scanner, reading, trail, -, same⟩ := sound.trail
  exact TokenList.pointsInto_of_scan trail (same.symm.trans fault)

theorem endOfInput_pointsInto (sound : c.Sound (.ofSource source)) (expected : String)
    : (c.endOfInput expected).PointsInto source := by
  rw [endOfInput]
  cases fault : c.fault with
  | some error => exact sound.fault_pointsInto fault
  | none =>
      have length : c.sourceLength = Text.byteLength source.toList :=
        sound.length.trans (Nat.zero_add _)
      refine ⟨source.toList, [], by simp, ?_, rfl⟩
      rw [Option.getD_none, SyntaxError.offset?, length]

theorem unexpected_pointsInto (sound : c.Sound (.ofSource source)) (expected : String)
    : (c.unexpected expected).PointsInto source := by
  rw [unexpected]
  cases here : c.peek? with
  | none => exact sound.endOfInput_pointsInto expected
  | some token =>
      obtain ⟨scanner, reading, after, trail, read, -⟩ := sound.head here
      exact trail.pointsInto_unexpectedToken expected read (sound.significant token here)

theorem nestingTooDeep_pointsInto (sound : c.Sound (.ofSource source))
    : (SyntaxError.nestingTooDeep c.offset).PointsInto source := by
  cases here : c.peek? with
  | none =>
      refine ⟨source.toList, [], by simp, ?_, trivial⟩
      rw [SyntaxError.offset?, offset, here]
      exact congrArg some (sound.length.trans (Nat.zero_add _))
  | some token =>
      obtain ⟨scanner, reading, after, trail, read, -⟩ := sound.head here
      obtain ⟨front, split, offset⟩ := trail.exists_front
      refine ⟨front, _, split, ?_, trivial⟩
      rw [SyntaxError.offset?, offset_eq here, Scanner.start_of_next read, offset]

end Cursor.Sound

-----------------------------------------------------------------------------------------
-- Tokens from a cursor on
-----------------------------------------------------------------------------------------

namespace Cursor

/-- The significant tokens from a cursor on, of all that there are. -/
def following (tokens : List Token) (c : Cursor) : List Token :=
  (tokens.drop c.index).filter Token.isSignificant

variable {origin : Scanner} {token : Token}

theorem following_suffix (tokens : List Token) (c : Cursor)
    : c.following tokens <:+ tokens.filter Token.isSignificant :=
  (List.drop_suffix ..).filter _

/-- A token that is moved past is the first of those from its cursor on. -/
theorem Sound.following_advance (sound : c.Sound origin) (here : c.peek? = some token)
    (complete : c.advance.Completes origin tokens)
    : c.following tokens = token :: c.advance.following tokens := by
  obtain ⟨comments, behind, isComment⟩ := Sound.advance_behind here
  obtain ⟨more, rfl⟩ := complete.grows
  have size : c.index = c.behind.toList.length := by simp [Cursor.index]
  have size' : c.advance.index = c.advance.behind.toList.length := by simp [Cursor.index]
  have silent : comments.filter Token.isSignificant = [] :=
    List.filter_eq_nil_iff.mpr fun comment member => by
      simp [Token.isSignificant, isComment comment member]
  rw [following, following, size', List.drop_left, behind, size, List.append_assoc, List.drop_left,
    List.cons_append, List.filter_cons_of_pos (sound.significant token here), List.filter_append,
    silent, List.nil_append]

/-- A token that is moved past is one of the source. -/
theorem Sound.mem_of_advance (sound : c.Sound origin) (here : c.peek? = some token)
    (complete : c.advance.Completes origin tokens)
    : token ∈ tokens := by
  obtain ⟨more, whole⟩ := (sound.advance here).2.trans complete.grows
  simp [← whole]

/-- The last significant token is behind the cursor. -/
theorem Sound.lt_index_of_le_lastIndex {index : Nat} (sound : c.Sound origin) (positive : 0 < index)
    (within : index ≤ c.lastIndex)
    : index < c.index := by
  rcases sound.last with ⟨zero, -⟩ | ⟨before, last, after, split, -, -, place, -⟩
  · omega
  · have size : c.index = c.behind.toList.length := by simp [Cursor.index]
    rw [size, split, List.length_append, List.length_cons]
    omega

/-- Of the tokens that are moved past at once only the first is significant. -/
theorem Sound.token_of_advance {other : Token} {index : Nat} (here : c.peek? = some token)
    (complete : c.advance.Completes origin tokens) (there : tokens[index]? = some other)
    (low : c.index ≤ index) (high : index < c.advance.index) (significant : other.isSignificant)
    : index = c.index ∧ other = token := by
  obtain ⟨comments, behind, isComment⟩ := Sound.advance_behind here
  have size : c.index = c.behind.toList.length := by simp [Cursor.index]
  rw [complete.getElem? high, behind, List.getElem?_append_right (size ▸ low)] at there
  cases more : index - c.behind.toList.length with
  | zero =>
      rw [more, List.getElem?_cons_zero] at there
      exact ⟨by omega, (Option.some.inj there).symm⟩
  | succ more' =>
      rw [more, List.getElem?_cons_succ] at there
      simp [Token.isSignificant, isComment other (List.mem_of_getElem? there)] at significant

theorem Sound.newlineAt_zero (sound : c.Sound origin) (here : c.peek? = some token)
    : c.newlineAt 0 = token.newlineBefore := by
  rw [newlineAt, peekAt?_zero here (sound.significant token here), Option.any_some]

/-- The first token from a cursor on begins a line if the current token does, also where a slash
is read again. -/
theorem Sound.newline_of_following {first : Token} {after : List Token} (sound : c.Sound origin)
    (complete : c.Completes origin tokens) (listed : c.following tokens = first :: after)
    : first.newlineBefore = c.newlineAt 0 := by
  have found : (tokens.drop c.index).find? Token.isSignificant = some first := by
    rw [← List.head?_filter]
    exact congrArg List.head? listed
  obtain ⟨token, here, same⟩ := sound.next_of_completes complete found
  rw [sound.newlineAt_zero here]
  rcases same with rfl | ⟨-, -, same⟩
  · rfl
  · exact same

/-- Where tokens are taken the first from the cursor on begins there. -/
theorem Sound.following_of_moves (sound : c.Sound origin) (moves : Moves origin c m)
    (complete : m.Completes origin tokens) (taken : c.index < m.index)
    : ∃ first after, c.following tokens = first :: after ∧ first.span.start = c.offset := by
  obtain ⟨first, there, significant, start⟩ := moves.first_token sound complete taken
  obtain ⟨inside, isToken⟩ := List.getElem?_eq_some_iff.mp there
  refine ⟨first, (tokens.drop (c.index + 1)).filter Token.isSignificant, ?_, start⟩
  rw [following, List.drop_eq_getElem_cons inside, isToken, List.filter_cons_of_pos significant]

/-- Whether a line begins behind the current token can be seen once that is moved past. -/
theorem Sound.newlineAt_one (sound : c.Sound origin) (here : c.peek? = some token)
    : c.newlineAt 1 = c.advance.newlineAt 0 := by
  rw [newlineAt, peekAt?_one here (sound.significant token here), newlineAt]
  cases next : c.advance.peek? with
  | none =>
      have none : c.advance.ahead = [] := by simpa [peek?] using next
      simp [peekAt?, Grammar.significant, none]
  | some follower =>
      rw [peekAt?_zero next ((sound.advance here).1.significant follower next)]

/-- A token that is moved past, with more tokens taken behind it and no line broken there, is
followed on its line. -/
theorem Sound.attached {P : Token → Token → List Token → Prop} (sound : c.Sound origin)
    (here : c.peek? = some token) (inLine : c.newlineAt 1 = false)
    (moves : Moves origin c.advance m) (complete : m.Completes origin tokens)
    (taken : c.advance.index < m.index)
    (holds
      : ∀ next after, c.advance.following tokens = next :: after →
          next.span.start = c.advance.offset → P token next after)
    : Attached tokens c.offset P := by
  have moved := (sound.advance here).1
  have complete' := complete.of_moves moves
  obtain ⟨next, after, listed, start⟩ := moved.following_of_moves moves complete taken
  refine ⟨token, next, after, ?_, (offset_eq here).symm, ?_, holds next after listed start⟩
  · rw [← listed, ← sound.following_advance here complete']
    exact following_suffix ..
  · rw [moved.newline_of_following complete' listed, ← sound.newlineAt_one here, inLine]

end Cursor

-----------------------------------------------------------------------------------------
-- Behaviour
-----------------------------------------------------------------------------------------

/-- What a parser does at a cursor in a source. If it succeeds the cursor moves on, and what is
given has a property in any tokens that may turn out to be all of the source. If it fails the error
points into the source. -/
structure Parser.Behaves (source : String) (tokens : List Token) (c : Cursor) (p : Parser α)
    (P : α → Cursor → Prop) : Prop where
  moves
    : c.Sound (.ofSource source) → ∀ a c', p c = .ok (a, c') → Moves (.ofSource source) c c'
  gives
    : c.Sound (.ofSource source) → ∀ a c', p c = .ok (a, c') →
        c'.Completes (.ofSource source) tokens → P a c'
  fails
    : c.Sound (.ofSource source) → ∀ error, p c = .error error → error.PointsInto source

namespace Parser

theorem bind_error {p : Parser α} {f : α → Parser β} {error : SyntaxError}
    : (p >>= f) c = .error error
      ↔ p c = .error error ∨ ∃ a m, p c = .ok (a, m) ∧ f a m = .error error := by
  change StateT.bind p f c = _ ↔ _
  cases run : p c with
  | error fault => simp [StateT.bind, bind, Except.bind, run]
  | ok result =>
      obtain ⟨a, m⟩ := result
      simp [StateT.bind, bind, Except.bind, run]

namespace Behaves

variable {p q : Parser α} {f : α → Parser β} {P P' : α → Cursor → Prop} {Q : β → Cursor → Prop}

-----------------------------------------------------------------------------------------
-- Combinations
-----------------------------------------------------------------------------------------

/-- A parser in a place where it is known that the cursor stands in the source. -/
theorem of_sound (behaves : c.Sound (.ofSource source) → Behaves source tokens c p P)
    : Behaves source tokens c p P where
  moves sound := (behaves sound).moves sound
  gives sound := (behaves sound).gives sound
  fails sound := (behaves sound).fails sound

/-- What is given has all properties that follow from the run to it. -/
theorem conclude (behaves : Behaves source tokens c p P)
    (follows
      : ∀ a c', p c = .ok (a, c') → Moves (.ofSource source) c c' →
          c'.Completes (.ofSource source) tokens → P a c' → P' a c')
    : Behaves source tokens c p P' where
  moves := behaves.moves
  gives sound a c' run complete :=
    follows a c' run (behaves.moves sound a c' run) complete (behaves.gives sound a c' run complete)
  fails := behaves.fails

theorem mono (behaves : Behaves source tokens c p P) (weaker : ∀ a c', P a c' → P' a c')
    : Behaves source tokens c p P' :=
  behaves.conclude fun a c' _ _ _ => weaker a c'

theorem any (behaves : Behaves source tokens c p P)
    : Behaves source tokens c p fun _ _ => True :=
  behaves.mono fun _ _ _ => trivial

/-- What is known of the first result is a premise of what has to hold of the second. The run to
the second parser and the move to its cursor are left unnamed where they are not needed. -/
theorem bind (first : Behaves source tokens c p P)
    (rest
      : ∀ (a : α) (m : Cursor) {_ : p c = .ok (a, m)} {_ : Moves (.ofSource source) c m},
          Behaves source tokens m (f a) fun b c' => P a m → Q b c')
    : Behaves source tokens c (p >>= f) Q where
  moves := by
    intro sound b c' run
    obtain ⟨a, m, run, next⟩ := bind_ok.mp run
    have onward := first.moves sound a m run
    have behaves := @rest a m run onward
    exact onward.trans (behaves.moves onward.sound b c' next)
  gives := by
    intro sound b c' run complete
    obtain ⟨a, m, run, next⟩ := bind_ok.mp run
    have onward := first.moves sound a m run
    have behaves := @rest a m run onward
    have last := behaves.moves onward.sound b c' next
    exact behaves.gives onward.sound b c' next complete
      (first.gives sound a m run (complete.of_moves last))
  fails := by
    intro sound error run
    rcases bind_error.mp run with run | ⟨a, m, run, next⟩
    · exact first.fails sound error run
    · have onward := first.moves sound a m run
      have behaves := @rest a m run onward
      exact behaves.fails onward.sound error next

/-- A first result of which nothing has to be known. -/
theorem skip (first : Behaves source tokens c p P)
    (rest
      : ∀ (a : α) (m : Cursor) {_ : p c = .ok (a, m)} {_ : Moves (.ofSource source) c m},
          Behaves source tokens m (f a) Q)
    : Behaves source tokens c (p >>= f) Q :=
  first.bind fun a m {run moves} => (@rest a m run moves).mono fun _ _ holds _ => holds

theorem pure {a : α} (holds : c.Completes (.ofSource source) tokens → P a c)
    : Behaves source tokens c (Pure.pure a) P where
  moves := by
    intro sound a c' run
    obtain ⟨-, rfl⟩ := pure_ok.mp run
    exact .refl sound
  gives := by
    intro sound a c' run complete
    obtain ⟨rfl, rfl⟩ := pure_ok.mp run
    exact holds complete
  fails := by
    intro sound error run
    cases run

/-- A parser that looks at its own cursor. -/
theorem look {f : Cursor → Parser β} (rest : Behaves source tokens c (f c) Q)
    : Behaves source tokens c ((MonadState.get : Parser Cursor) >>= f) Q where
  moves := rest.moves
  gives := rest.gives
  fails := rest.fails

theorem map {g : α → β} (given : Behaves source tokens c p P) (image : ∀ a c', P a c' → Q (g a) c')
    : Behaves source tokens c (g <$> p) Q where
  moves := by
    intro sound b c' run
    obtain ⟨a, made, -⟩ := map_ok.mp run
    exact given.moves sound a c' made
  gives := by
    intro sound b c' run complete
    obtain ⟨a, made, rfl⟩ := map_ok.mp run
    exact image a c' (given.gives sound a c' made complete)
  fails := by
    intro sound error run
    refine given.fails sound error ?_
    change StateT.map g p c = _ at run
    cases made : p c with
    | error fault => simpa [StateT.map, Bind.bind, Except.bind, made] using run
    | ok result => simp [StateT.map, Bind.bind, Except.bind, Pure.pure, Except.pure, made] at run

theorem ite {condition : Prop} [Decidable condition]
    (yes : condition → Behaves source tokens c p P) (no : ¬condition → Behaves source tokens c q P)
    : Behaves source tokens c (if condition then p else q) P := by
  split
  · exact yes ‹_›
  · exact no ‹_›

-----------------------------------------------------------------------------------------
-- Elementary parsers
-----------------------------------------------------------------------------------------

/-- A run that is known to succeed. -/
theorem succeeds {a : α} (run : p c = .ok (a, m))
    (onward : c.Sound (.ofSource source) → Moves (.ofSource source) c m)
    : Behaves source tokens c p fun _ _ => True where
  moves := by
    intro sound b c' again
    obtain ⟨rfl, rfl⟩ := Prod.mk.inj (Except.ok.inj (run.symm.trans again))
    exact onward sound
  gives _ _ _ _ _ := trivial
  fails := by
    intro sound error again
    cases run.symm.trans again

/-- A run that is known to fail. -/
theorem failing {error : SyntaxError} (run : p c = .error error)
    (points : c.Sound (.ofSource source) → error.PointsInto source)
    : Behaves source tokens c p P where
  moves := by
    intro sound a c' again
    cases run.symm.trans again
  gives := by
    intro sound a c' again
    cases run.symm.trans again
  fails := by
    intro sound other again
    obtain rfl := Except.error.inj (run.symm.trans again)
    exact points sound

theorem unexpected {expected : String}
    : Behaves source tokens c (Parser.unexpected expected) P :=
  .failing rfl fun sound => sound.unexpected_pointsInto expected

theorem endOfInput {expected : String}
    : Behaves source tokens c (Parser.endOfInput expected) P :=
  .failing rfl fun sound => sound.endOfInput_pointsInto expected

/-- A fault that cut the tokens short points into the source. -/
theorem fault {error : SyntaxError} (cut : c.fault = some error)
    : Behaves source tokens c (throw error) P :=
  .failing rfl fun sound => sound.fault_pointsInto cut

theorem tooDeep
    : Behaves source tokens c Grammar.tooDeep P :=
  .failing rfl fun sound => sound.nestingTooDeep_pointsInto

theorem advance
    : Behaves source tokens c Parser.advance fun _ _ => True :=
  .succeeds rfl .advance

theorem advanceIf {condition : Bool}
    : Behaves source tokens c (Parser.advanceIf condition) fun _ _ => True :=
  .ite (fun _ => advance) fun _ => .pure fun _ => trivial

theorem reread {reading : SlashReading}
    : Behaves source tokens c (Parser.reread reading) fun _ _ => True :=
  .succeeds rfl fun sound => (sound.reread_held reading).moves

theorem rereadAt {kind : TokenKind} {reading : SlashReading}
    : Behaves source tokens c (Parser.rereadAt kind reading) fun _ _ => True :=
  .look (.ite (fun _ => reread) fun _ => .pure fun _ => trivial)

theorem eat {text : String}
    : Behaves source tokens c (Parser.eat text) fun _ _ => True := by
  by_cases here : c.sees text
  · exact .succeeds (if_pos here) .advance
  · exact .succeeds (if_neg here) .refl

theorem expect {text : String}
    : Behaves source tokens c (Parser.expect text) fun _ _ => True := by
  by_cases here : c.sees text
  · exact .succeeds (if_pos here) .advance
  · exact .failing (if_neg here) fun sound => sound.unexpected_pointsInto text

theorem atClose {closing : String}
    : Behaves source tokens c (Parser.atClose closing) fun _ _ => True := by
  cases here : c.peek? with
  | some token => exact .succeeds (atClose_ok.mpr ⟨token, here, rfl, rfl⟩) .refl
  | none =>
      refine .failing ?_ fun sound => sound.endOfInput_pointsInto closing
      rw [Parser.atClose, here]

theorem start
    : Behaves source tokens c Parser.start fun _ _ => True := by
  cases here : c.peek? with
  | some token => exact .succeeds (start_ok.mpr ⟨token, here, rfl, rfl⟩) .refl
  | none =>
      refine .failing ?_ fun sound => sound.endOfInput_pointsInto "more input"
      rw [Parser.start, here]

theorem spanFrom {offset : Nat}
    : Behaves source tokens c (Parser.spanFrom offset) fun _ _ => True :=
  .succeeds rfl .refl

theorem extentFrom {offset first : Nat}
    : Behaves source tokens c (Parser.extentFrom offset first) fun _ _ => True :=
  .succeeds rfl .refl

theorem consumeSemicolon
    : Behaves source tokens c Parser.consumeSemicolon fun _ _ => True := by
  by_cases here : c.sees ";"
  · exact .succeeds (if_pos here) .advance
  cases next : c.peek? with
  | none => exact .succeeds (by rw [Parser.consumeSemicolon, if_neg here, next]) .refl
  | some token =>
      by_cases omitted : token.isPunctuator "\x7d" || token.newlineBefore
      · refine .succeeds (a := ()) ?_ .refl
        simp only [Parser.consumeSemicolon, if_neg here, next, if_pos omitted]
      · refine .failing ?_ fun sound => sound.unexpected_pointsInto "`;`"
        simp only [Parser.consumeSemicolon, if_neg here, next, if_neg omitted]

theorem markArrowEnd
    : Behaves source tokens c Parser.markArrowEnd fun _ _ => True :=
  .succeeds rfl fun sound => sound.markArrowEnd_held.moves

-----------------------------------------------------------------------------------------
-- Optional and repeated items
-----------------------------------------------------------------------------------------

theorem onlyIf {condition : Bool} {holds : α → Prop}
    (given : condition → Behaves source tokens c p fun a _ => holds a)
    : Behaves source tokens c (Parser.onlyIf condition p) fun found _ => ∀ a ∈ found, holds a :=
  .ite (fun yes => (given yes).map fun a _ holds => by simpa using holds)
    fun _ => .pure fun _ => by simp

section Items

variable {item : Parser α} {holds : α → Prop}
  (each : ∀ c, Behaves source tokens c item fun a _ => holds a)

include each

theorem after? {text : String}
    : Behaves source tokens c (Parser.after? text item) fun found _ => ∀ a ∈ found, holds a :=
  .skip .eat fun _ m => onlyIf fun _ => each m

theorem itemThenComma
    : Behaves source tokens c (Parser.itemThenComma item) fun found _ => found.Holds holds :=
  .bind (each c) fun _ _ => .skip .eat fun _ _ =>
    .ite (fun _ => .pure fun _ given => given) fun _ => .pure fun _ given => given

end Items

section Rounds

variable {round : Parser (Round α)} {holds : α → Prop}
  (each : ∀ c, Behaves source tokens c round fun found _ => found.Holds holds)

include each

theorem rounds
    : Behaves source tokens c (Parser.rounds round) fun items _ => ∀ item ∈ items, holds item := by
  have upTo (fuel : Nat) (c : Cursor)
      : Behaves source tokens c (roundsUpTo round fuel)
          fun items _ => ∀ item ∈ items, holds item := by
    induction fuel generalizing c with
    | zero => exact .pure fun _ => by simp
    | succ fuel ih =>
        refine .bind (each c) fun found m => ?_
        cases found with
        | stop => exact .pure fun _ _ => by simp
        | last item => exact .pure fun _ given => List.forall_mem_singleton.mpr given
        | more item =>
            exact .bind (ih m) fun others _ =>
              .pure fun _ all given => List.forall_mem_cons.mpr ⟨given, all⟩
  exact ⟨(upTo _ c).moves, (upTo _ c).gives, (upTo _ c).fails⟩

theorem unlessClosed {closing : String}
    : Behaves source tokens c (Parser.unlessClosed closing round)
        fun found _ => found.Holds holds :=
  .skip .atClose fun _ m => .ite (fun _ => .pure fun _ => trivial) fun _ => each m

end Rounds

section Lists

variable {item : Parser α} {holds : α → Prop}
  (each : ∀ c, Behaves source tokens c item fun a _ => holds a)

include each

theorem itemsUntil {closing : String}
    : Behaves source tokens c (Parser.itemsUntil closing item)
        fun items _ => ∀ item ∈ items, holds item :=
  .bind (.rounds fun _ => .unlessClosed fun c => (each c).map (g := Round.more) fun _ _ => id)
    fun _ _ => .skip .advance fun _ _ => .pure fun _ => id

theorem commaSeparated
    : Behaves source tokens c (Parser.commaSeparated item)
        fun items _ => ∀ item ∈ items, holds item :=
  .rounds fun _ => .itemThenComma each

theorem commaListUntil {closing : String}
    : Behaves source tokens c (Parser.commaListUntil closing item)
        fun items _ => ∀ item ∈ items, holds item :=
  .bind (.rounds fun _ => .unlessClosed fun _ => .itemThenComma each)
    fun _ _ => .skip .expect fun _ _ => .pure fun _ => id

end Lists

end Behaves

end Parser

end ScriptStyle.Grammar
