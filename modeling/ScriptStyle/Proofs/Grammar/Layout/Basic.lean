import ScriptStyle.Proofs.Grammar.Coverage.Construct
import ScriptStyle.Proofs.Tree.Layout

/-!
What a parser lays out between two cursors: nodes that lie between them and agree with all tokens
there may be, over tokens whose braces match each other.
-/

namespace ScriptStyle.Grammar

variable {α : Type} {origin : Scanner} {c m c' : Cursor} {nodes others : List Node}
  {tokens : List Token}

-----------------------------------------------------------------------------------------
-- Moves
-----------------------------------------------------------------------------------------

/-- A cursor moves on in a source. -/
structure Moves (origin : Scanner) (c c' : Cursor) : Prop where
  sound : c'.Sound origin
  grows : c.behind.toList <+: c'.behind.toList
  ended : c.ahead = [] → c'.ahead = [] ∧ c'.behind = c.behind
  lastStop_le : c.lastStop ≤ c'.lastStop
  offset_le : c.offset ≤ c'.offset

theorem Ledger.moves {parts : List Shown} (ledger : Ledger origin c parts c')
    : Moves origin c c' where
  sound := ledger.sound
  grows := ledger.grows
  ended none := ⟨(ledger.ended none).1, (ledger.ended none).2.1⟩
  lastStop_le := ledger.lastStop_le
  offset_le := ledger.offset_le

/-- What completes a later cursor completes an earlier one. -/
theorem Cursor.Completes.of_moves (complete : c'.Completes origin tokens)
    (moves : Moves origin c c')
    : c.Completes origin tokens where
  trail := complete.trail
  grows := moves.grows.trans complete.grows
  ended := by
    intro none
    obtain ⟨still, same⟩ := moves.ended none
    rw [complete.ended still, same]

namespace Moves

theorem refl (sound : c.Sound origin)
    : Moves origin c c :=
  (Ledger.refl sound).moves

theorem trans (first : Moves origin c m) (second : Moves origin m c')
    : Moves origin c c' where
  sound := second.sound
  grows := first.grows.trans second.grows
  ended := by
    intro none
    obtain ⟨ended, same⟩ := first.ended none
    obtain ⟨ended', same'⟩ := second.ended ended
    exact ⟨ended', same'.trans same⟩
  lastStop_le := first.lastStop_le.trans second.lastStop_le
  offset_le := first.offset_le.trans second.offset_le

theorem index_le (moves : Moves origin c c')
    : c.index ≤ c'.index := by
  have shorter := moves.grows.length_le
  simpa [Cursor.index] using shorter

theorem advance (sound : c.Sound origin)
    : Moves origin c c.advance := by
  cases here : c.peek? with
  | none =>
      rw [Cursor.advance_of_none here]
      exact refl sound
  | some token =>
      obtain ⟨moved, grows⟩ := sound.advance here
      have taken := sound.offset_lt_advance here
      have bounds := sound.lastStop_le_offset
      refine ⟨moved, (List.prefix_append ..).trans grows, fun none => ?_, by omega, by omega⟩
      simp [Cursor.peek?, none] at here

/-- The next token of a source begins at the cursor, also where a slash is read again. -/
theorem first_token (sound : c.Sound origin) (moves : Moves origin c c')
    (complete : c'.Completes origin tokens) (taken : c.index < c'.index)
    : ∃ token, tokens[c.index]? = some token ∧ token.isSignificant
        ∧ token.span.start = c.offset := by
  have complete' := complete.of_moves moves
  obtain ⟨more, rfl⟩ := complete'.grows
  have size : c.index = c.behind.toList.length := by simp [Cursor.index]
  cases more with
  | nil =>
      have length := complete.grows.length_le
      simp only [Cursor.index, List.append_nil, Array.length_toList] at taken length
      omega
  | cons first rest =>
      refine ⟨first, by simp [size], ?_⟩
      cases here : c.peek? with
      | none =>
          have none : c.ahead = [] := by simpa [Cursor.peek?] using here
          simpa using complete'.ended none
      | some token =>
          obtain ⟨scanner, reading, after, trail, read, -⟩ := sound.head here
          obtain ⟨stop, all⟩ := complete'.trail
          obtain ⟨middle, before, behind⟩ := all.of_append
          obtain rfl := before.unique trail
          cases behind with
          | cons again =>
              refine ⟨?_, ?_⟩
              · by_cases slash : first.startsWithSlash = true
                · cases kind : first.kind <;> simp_all [Token.startsWithSlash, Token.isSignificant,
                    TokenKind.isComment]
                · have same := (Scanner.next_of_not_slash again slash reading).symm.trans read
                  obtain rfl : first = token := by simpa using congrArg Prod.fst same
                  exact sound.significant first here
              · rw [Cursor.Sound.offset_eq here, Scanner.start_of_next again,
                  Scanner.start_of_next read]

end Moves

-----------------------------------------------------------------------------------------
-- Layouts
-----------------------------------------------------------------------------------------

/-- From one cursor to another nodes are laid out: they lie between the cursors, the braces of
the tokens there match each other, and the indices that are noted of arrow functions are those
of the nodes. -/
structure Laid (origin : Scanner) (c : Cursor) (nodes : List Node) (c' : Cursor) : Prop
    extends Moves origin c c' where
  balanced : ∃ taken, c'.behind.toList = c.behind.toList ++ taken ∧ Balanced taken
  arrows
    : ∀ tokens, c'.Completes origin tokens → ∀ index,
        index ∈ c'.arrowEnds
          ↔ index ∈ c.arrowEnds ∨ ∃ node ∈ nodes, node.ClosesArrow tokens index
  fits
    : ∀ tokens, c'.Completes origin tokens → ∀ node ∈ nodes,
        node.Fits tokens ⟨c.offset, c'.lastStop⟩

/-- The span between two cursors lies in that between cursors around them. -/
theorem Moves.encloses (first : Moves origin c m) {inner : Cursor} (last : Moves origin inner c')
    : (⟨c.offset, c'.lastStop⟩ : Span).encloses ⟨m.offset, inner.lastStop⟩ :=
  Span.encloses_iff.mpr ⟨first.offset_le, last.lastStop_le⟩

namespace Laid

/-- A cursor that keeps its place lays out nothing. -/
theorem of_behind (moves : Moves origin c c') (behind : c'.behind = c.behind)
    (arrowEnds : c'.arrowEnds = c.arrowEnds)
    : Laid origin c [] c' :=
  ⟨moves, ⟨[], by simp [behind], .nil⟩, by simp [arrowEnds], by simp⟩

theorem refl (sound : c.Sound origin)
    : Laid origin c [] c :=
  .of_behind (.refl sound) rfl rfl

/-- Nodes that are laid out one after another are laid out together. -/
theorem trans (first : Laid origin c nodes m) (second : Laid origin m others c')
    : Laid origin c (nodes ++ others) c' where
  toMoves := first.toMoves.trans second.toMoves
  balanced := by
    obtain ⟨taken, behind, balanced⟩ := first.balanced
    obtain ⟨taken', behind', balanced'⟩ := second.balanced
    exact ⟨taken ++ taken', by rw [behind', behind, List.append_assoc], balanced.append balanced'⟩
  arrows := by
    intro tokens complete index
    rw [second.arrows tokens complete, first.arrows tokens (complete.of_moves second.toMoves)]
    simp only [List.mem_append, or_and_right, exists_or, or_assoc]
  fits := by
    intro tokens complete node member
    have sound := second.sound
    rcases List.mem_append.mp member with before | behind
    · exact (first.fits tokens (complete.of_moves second.toMoves) node before).mono
        (Span.encloses_iff.mpr ⟨Nat.le_refl _, second.lastStop_le⟩)
    · exact (second.fits tokens complete node behind).mono
        (Span.encloses_iff.mpr ⟨first.offset_le, Nat.le_refl _⟩)

/-- Tokens of no node may come before nodes. -/
theorem after (second : Laid origin m nodes c') (first : Laid origin c [] m)
    : Laid origin c nodes c' :=
  first.trans second

/-- Tokens of no node may follow. -/
theorem skip (first : Laid origin c nodes m) (second : Laid origin m [] c')
    : Laid origin c nodes c' := by
  simpa using first.trans second

theorem perm (laid : Laid origin c nodes c') (same : nodes.Perm others)
    : Laid origin c others c' where
  toMoves := laid.toMoves
  balanced := laid.balanced
  arrows := by
    intro tokens complete index
    simp only [laid.arrows tokens complete, same.mem_iff]
  fits := fun tokens complete node member =>
    laid.fits tokens complete node (same.mem_iff.mpr member)

end Laid

-----------------------------------------------------------------------------------------
-- Elementary moves
-----------------------------------------------------------------------------------------

namespace Cursor

/-- The token at a cursor is no brace. -/
def Unbraced (c : Cursor) : Prop :=
  ∀ token, c.peek? = some token → token.isBrace = false

variable {token : Token} {text : String}

theorem unbraced_of_kind (here : c.peek? = some token) (kind : token.kind ≠ .punctuator)
    : c.Unbraced := by
  intro found there
  obtain rfl := Option.some.inj (here.symm.trans there)
  simp [Token.isBrace, Token.isPunctuator, kind]

theorem unbraced_of_text (here : c.peek? = some token)
    (other : token.text ≠ "\x7b" ∧ token.text ≠ "\x7d")
    : c.Unbraced := by
  intro found there
  obtain rfl := Option.some.inj (here.symm.trans there)
  simp [Token.isBrace, Token.isPunctuator, other]

/-- A terminal other than a brace is none. -/
theorem unbraced_of_sees (other : text ≠ "\x7b" ∧ text ≠ "\x7d") (here : c.sees text)
    : c.Unbraced := by
  obtain ⟨token, there, terminal⟩ := sees_eq_true.mp here
  simp only [Token.isTerminal, Bool.and_eq_true, beq_iff_eq] at terminal
  exact unbraced_of_text there (by rwa [terminal.2])

theorem unbraced_of_isPunctuatorIn {texts : List String}
    (other : "\x7b" ∉ texts ∧ "\x7d" ∉ texts) (here : c.peek? = some token)
    (listed : token.isPunctuatorIn texts)
    : c.Unbraced := by
  simp only [Token.isPunctuatorIn, Bool.and_eq_true, List.contains_iff_mem] at listed
  exact unbraced_of_text here ⟨fun opens => other.1 (opens ▸ listed.2),
    fun closes => other.2 (closes ▸ listed.2)⟩

theorem sees_of_isPunctuator (here : c.peek? = some token) (spelled : token.isPunctuator text)
    : c.sees text := by
  simp only [Token.isPunctuator, Bool.and_eq_true] at spelled
  simp [sees, here, Token.isTerminal, spelled]

@[simp] theorem advance_arrowEnds : c.advance.arrowEnds = c.arrowEnds := by
  cases text : c.ahead with
  | nil => simp only [advance, text]
  | cons entry rest =>
      rw [advance_cons text]
      rfl

@[simp] theorem reread_arrowEnds (reading : SlashReading)
    : (c.reread reading).arrowEnds = c.arrowEnds := by
  simp only [Cursor.reread]
  split
  · rfl
  · split <;> rfl

theorem reread_behind (reading : SlashReading)
    : (c.reread reading).behind = c.behind := by
  simp only [Cursor.reread]
  split
  · rfl
  · split <;> rfl

namespace Sound

/-- Comments are no braces. -/
theorem balanced_of_isComment {comments : List Token}
    (isComment : ∀ comment ∈ comments, comment.kind.isComment)
    : Balanced comments := by
  refine .of_unbraced fun comment member => ?_
  have known := isComment comment member
  cases kind : comment.kind <;> simp_all [TokenKind.isComment, Token.isBrace, Token.isPunctuator]

/-- Moving past a token that is no brace lays out nothing. -/
theorem advance_laid (sound : c.Sound origin) (unbraced : c.Unbraced)
    : Laid origin c [] c.advance := by
  cases here : c.peek? with
  | none =>
      rw [advance_of_none here]
      exact .refl sound
  | some token =>
      obtain ⟨comments, behind, isComment⟩ := advance_behind here
      refine ⟨.advance sound, ⟨token :: comments, behind, ?_⟩, by simp, by simp⟩
      exact .append (.token (unbraced token here)) (balanced_of_isComment isComment)

theorem reread_laid (sound : c.Sound origin) (reading : SlashReading)
    : Laid origin c [] (c.reread reading) :=
  .of_behind (sound.reread_held reading).moves (reread_behind reading) (reread_arrowEnds reading)

end Sound

end Cursor

/-- Nodes between two braces are laid out with these. -/
theorem Laid.braced (sound : c.Sound origin) (opens : c.sees "\x7b")
    (inner : Laid origin c.advance nodes m) (closes : m.sees "\x7d")
    : Laid origin c nodes m.advance := by
  obtain ⟨opening, here, -⟩ := Cursor.sees_eq_true.mp opens
  obtain ⟨closing, there, -⟩ := Cursor.sees_eq_true.mp closes
  have first := Moves.advance sound
  have last := Moves.advance inner.sound
  refine ⟨first.trans (inner.toMoves.trans last), ?_, fun tokens complete index => ?_,
    fun tokens complete node member => ?_⟩
  · obtain ⟨comments, behind, isComment⟩ := Cursor.Sound.advance_behind here
    obtain ⟨comments', behind', isComment'⟩ := Cursor.Sound.advance_behind there
    obtain ⟨taken, between, balanced⟩ := inner.balanced
    refine ⟨opening :: (comments ++ taken) ++ [closing] ++ comments', ?_, .append ?_ ?_⟩
    · simp [behind', between, behind]
    · exact .braced (sound.isPunctuator_of_sees here opens rfl (by decide))
        (inner.sound.isPunctuator_of_sees there closes rfl (by decide))
        (.append (Cursor.Sound.balanced_of_isComment isComment) balanced)
    · exact Cursor.Sound.balanced_of_isComment isComment'
  · rw [Cursor.advance_arrowEnds, inner.arrows tokens (complete.of_moves last),
      Cursor.advance_arrowEnds]
  · exact (inner.fits tokens (complete.of_moves last) node member).mono (first.encloses last)

-----------------------------------------------------------------------------------------
-- Elementary parsers
-----------------------------------------------------------------------------------------

namespace Parser

variable {text closing : String} {a : Unit}

theorem expect_laid (other : text ≠ "\x7b" ∧ text ≠ "\x7d") (sound : c.Sound origin)
    (run : expect text c = .ok (a, c'))
    : Laid origin c [] c' := by
  obtain ⟨here, rfl⟩ := expect_ok.mp run
  exact sound.advance_laid (Cursor.unbraced_of_sees other here)

theorem eat_laid {eaten : Bool} (other : text ≠ "\x7b" ∧ text ≠ "\x7d") (sound : c.Sound origin)
    (run : eat text c = .ok (eaten, c'))
    : Laid origin c [] c' := by
  rcases eat_ok.mp run with ⟨-, here, rfl⟩ | ⟨-, -, rfl⟩
  · exact sound.advance_laid (Cursor.unbraced_of_sees other here)
  · exact .refl sound

theorem advanceIf_laid {condition : Bool} (sound : c.Sound origin)
    (run : advanceIf condition c = .ok (a, c')) (unbraced : condition → c.Unbraced)
    : Laid origin c [] c' := by
  rcases advanceIf_ok.mp run with ⟨holds, rfl⟩ | ⟨-, rfl⟩
  · exact sound.advance_laid (unbraced holds)
  · exact .refl sound

theorem rereadAt_laid {kind : TokenKind} {reading : SlashReading} (sound : c.Sound origin)
    (run : rereadAt kind reading c = .ok (a, c'))
    : Laid origin c [] c' := by
  rcases rereadAt_ok.mp run with ⟨-, rfl⟩ | ⟨-, rfl⟩
  · exact sound.reread_laid reading
  · exact .refl sound

theorem consumeSemicolon_laid (sound : c.Sound origin) (run : consumeSemicolon c = .ok (a, c'))
    : Laid origin c [] c' := by
  rcases consumeSemicolon_ok.mp run with ⟨here, rfl⟩ | ⟨-, -, rfl⟩
  · exact sound.advance_laid (Cursor.unbraced_of_sees (by decide) here)
  · exact .refl sound

section Optional

variable {item : Parser α} {found : Option α} {make : α → Node}
  (each : ∀ {c c' : Cursor} {a : α}, c.Sound origin → item c = .ok (a, c')
    → Laid origin c [make a] c')

include each

theorem onlyIf_laid {condition : Bool} (sound : c.Sound origin)
    (run : onlyIf condition item c = .ok (found, c'))
    : Laid origin c (found.toList.map make) c' := by
  rcases onlyIf_ok.mp run with ⟨-, a, item, rfl⟩ | ⟨-, rfl, rfl⟩
  · exact each sound item
  · exact .refl sound

theorem after?_laid (other : text ≠ "\x7b" ∧ text ≠ "\x7d") (sound : c.Sound origin)
    (run : after? text item c = .ok (found, c'))
    : Laid origin c (found.toList.map make) c' := by
  rcases after?_ok.mp run with ⟨here, a, item, rfl⟩ | ⟨-, rfl, rfl⟩
  · have before := sound.advance_laid (Cursor.unbraced_of_sees other here)
    exact (each before.sound item).after before
  · exact .refl sound

end Optional

-----------------------------------------------------------------------------------------
-- Repetitions
-----------------------------------------------------------------------------------------

/-- The nodes of what a round finds. -/
def Round.made (make : α → List Node) : Round α → List Node
  | .stop => []
  | .last item | .more item => make item

variable {round : Parser (Round α)} {item : Parser α} {items : List α} {make : α → List Node}

/-- Nodes that are laid out round by round are laid out together. -/
theorem Rounds.laid (repeated : Rounds round c items c')
    (each : ∀ {c c' : Cursor} {found : Round α}, c.Sound origin → round c = .ok (found, c')
      → Laid origin c (found.made make) c')
    (sound : c.Sound origin)
    : Laid origin c (items.flatMap make) c' := by
  induction repeated with
  | stop run => exact each sound run
  | last run => simpa [Round.made] using each sound run
  | more run rest ih =>
      have first := each sound run
      exact first.trans (ih first.sound)

theorem itemThenComma_laid {found : Round α}
    (each : ∀ {c c' : Cursor} {a : α}, c.Sound origin → item c = .ok (a, c')
      → Laid origin c (make a) c')
    (sound : c.Sound origin) (run : itemThenComma item c = .ok (found, c'))
    : Laid origin c (found.made make) c' := by
  simp only [itemThenComma, bind_ok, ite_ok, pure_ok] at run
  obtain ⟨value, m, run, eaten, _, comma, ⟨-, rfl, rfl⟩ | ⟨-, rfl, rfl⟩⟩ := run
  all_goals
    have first := each sound run
    exact first.skip (eat_laid (by decide) first.sound comma)

theorem unlessClosed_laid {found : Round α}
    (each : ∀ {c c' : Cursor} {found : Round α}, c.Sound origin → round c = .ok (found, c')
      → Laid origin c (found.made make) c')
    (sound : c.Sound origin) (run : unlessClosed closing round c = .ok (found, c'))
    : Laid origin c (found.made make) c' := by
  obtain ⟨-, ⟨rfl, rfl, -⟩ | ⟨-, run⟩⟩ := unlessClosed_ok.mp run
  · exact .refl sound
  · exact each sound run

section Lists

variable {shown : α → List Shown} {node : α → Node}
  (covers : ItemCovers origin item shown)
  (each : ∀ {c c' : Cursor} {a : α}, c.Sound origin → item c = .ok (a, c')
    → Laid origin c [node a] c')

include covers each

theorem commaSeparated_laid (sound : c.Sound origin)
    (run : commaSeparated item c = .ok (items, c'))
    : Laid origin c (items.map node) c' := by
  rw [List.map_eq_flatMap]
  exact (rounds_ok (itemThenComma_covers covers) sound run).laid (itemThenComma_laid each) sound

/-- Items with commas between them are laid out up to the closing punctuator. -/
theorem commaListUntil_laid (sound : c.Sound origin)
    (run : commaListUntil closing item c = .ok (items, c'))
    : ∃ m, Laid origin c (items.map node) m ∧ m.sees closing ∧ m.advance = c' := by
  simp only [commaListUntil, bind_ok, pure_ok, expect_ok] at run
  obtain ⟨found, m, run, -, _, ⟨here, rfl⟩, rfl, rfl⟩ := run
  rw [List.map_eq_flatMap]
  have repeated := rounds_ok (unlessClosed_covers (itemThenComma_covers covers)) sound run
  exact ⟨m, repeated.laid (unlessClosed_laid (itemThenComma_laid each)) sound, here, rfl⟩

/-- Items with commas between them are laid out with the braces around them. -/
theorem bracedList_laid (sound : c.Sound origin) (opens : c.sees "\x7b")
    (run : commaListUntil "\x7d" item c.advance = .ok (items, c'))
    : Laid origin c (items.map node) c' := by
  obtain ⟨m, laid, closes, rfl⟩ := commaListUntil_laid covers each (Moves.advance sound).sound run
  exact laid.braced sound opens closes

end Lists

/-- Items are read up to the closing punctuator. -/
theorem itemsUntil_rounds {one : α → List Shown}
    (covers : ItemCovers origin item one)
    (rises : ∀ {c c' : Cursor} {found : α}, c.Sound origin → item c = .ok (found, c')
      → c.offset < c'.lastStop)
    (sound : c.Sound origin) (run : itemsUntil closing item c = .ok (items, c'))
    : ∃ m, Rounds (unlessClosed closing (Round.more <$> item)) c items m ∧ m.sees closing
        ∧ m.advance = c' := by
  simp only [itemsUntil, bind_ok, pure_ok, advance_ok] at run
  obtain ⟨found, m, run, -, _, rfl, rfl, rfl⟩ := run
  have repeated := rounds_ok (untilClose_covers covers rises) sound run
  obtain ⟨token, here, closes⟩ := repeated.atClose
  exact ⟨m, repeated, Cursor.sees_of_isPunctuator here closes, rfl⟩

theorem more_laid {found : Round α}
    (each : ∀ {c c' : Cursor} {a : α}, c.Sound origin → item c = .ok (a, c')
      → Laid origin c (make a) c')
    (sound : c.Sound origin) (run : (Round.more <$> item) c = .ok (found, c'))
    : Laid origin c (found.made make) c' := by
  obtain ⟨value, found, rfl⟩ := map_ok.mp run
  exact each sound found

end Parser

end ScriptStyle.Grammar
