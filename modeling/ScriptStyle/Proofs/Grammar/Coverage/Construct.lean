import ScriptStyle.Proofs.Grammar.Coverage.Repetition

/-!
Coverage by expressions and statements, which know where they begin and end. A construct that
may end with a semicolon ends at the last token that was read: at a semicolon of its own, or at
the last token of its content where it needs none.
-/

namespace ScriptStyle

/-- A semicolon as a statement of its own. -/
def Shown.stray (token : Token) (index : Nat) : Shown :=
  .statement (.empty ⟨⟨token.span, ⟨index, index⟩⟩, false, false⟩) .program

theorem Shown.of_stray (token : Token) (index : Nat)
    : (stray token index).literal? = none ∧ (stray token index).ending? = none
      ∧ (stray token index).isForLoop = false
      ∧ ∀ tokens, (stray token index).semicolons tokens = [index] :=
  of_empty (show (stray token index).empty? = some ⟨token.span, ⟨index, index⟩⟩ from rfl)

namespace Grammar

open ScriptStyle.Grammar.Parser (endsFreely)

variable {origin : Scanner} {c m c' : Cursor} {parts others : List Shown} {tokens : List Token}

-----------------------------------------------------------------------------------------
-- The last token
-----------------------------------------------------------------------------------------

namespace Cursor.Sound

/-- The text behind a cursor ends before what is ahead. -/
theorem scanner_le_offset {scanner : Scanner} (sound : c.Sound origin)
    (trail : Trail origin c.behind.toList scanner)
    : scanner.offset ≤ c.offset := by
  cases here : c.peek? with
  | some token =>
      obtain ⟨found, reading, after, behind, read, -⟩ := sound.head here
      obtain rfl := trail.unique behind
      rw [offset_eq here, Scanner.start_of_next read, Scanner.skipBlank_offset]
      omega
  | none =>
      have inside := trail.offset_le
      have length := sound.length
      rw [Cursor.offset, here]
      simp only
      omega

/-- A parser that takes bytes takes a significant token, and the last of those it takes is
the last token behind it. -/
theorem last_of_rises (sound : c.Sound origin) (ledger : Ledger origin c parts c')
    (rises : c.offset < c'.lastStop)
    : c.index ≤ c'.lastIndex ∧ c'.lastIndex < c'.index
      ∧ ∃ before last after, c'.behind.toList = before ++ last :: after
        ∧ before.length = c'.lastIndex ∧ last.isSignificant ∧ last.span.stop = c'.lastStop
        ∧ ∀ comment ∈ after, comment.isSignificant = false := by
  rcases ledger.sound.last with ⟨-, zero, -⟩ | ⟨before, last, after, split, found, comments, index, stop⟩
  · omega
  · refine ⟨?_, ?_, before, last, after, split, index.symm, found, stop.symm, comments⟩
    · obtain ⟨scanner, reading, trail, -⟩ := sound.trail
      have bound := sound.scanner_le_offset trail
      obtain ⟨new, grown⟩ := ledger.grows
      by_contra earlier
      have member : last ∈ c.behind.toList := by
        have inside : c'.lastIndex < c.behind.toList.length := by
          simpa [Cursor.index] using earlier
        have here : (c.behind.toList ++ new)[c'.lastIndex]? = some last := by
          rw [grown, split, index]
          simp
        rw [List.getElem?_append_left inside] at here
        exact List.mem_of_getElem? here
      have bounds := trail.bounds member
      omega
    · have size : c'.index = c'.behind.toList.length := by simp [Cursor.index]
      rw [size, split, index]
      simp

/-- The next token of a source is the one at the cursor, unless a slash is read again. -/
theorem next_of_completes (sound : c.Sound origin) (complete : c.Completes origin tokens)
    {next : Token} (found : (tokens.drop c.index).find? Token.isSignificant = some next)
    : ∃ token, c.peek? = some token
        ∧ (next = token
          ∨ token.startsWithSlash ∧ next.startsWithSlash ∧ next.newlineBefore = token.newlineBefore) := by
  obtain ⟨more, rfl⟩ := complete.grows
  have size : c.index = c.behind.toList.length := by simp [Cursor.index]
  rw [size, List.drop_left] at found
  cases more with
  | nil => cases found
  | cons first rest =>
      cases here : c.peek? with
      | none =>
          have none : c.ahead = [] := by simpa [Cursor.peek?] using here
          simpa using complete.ended none
      | some token =>
          obtain ⟨scanner, reading, after, trail, read, -⟩ := sound.head here
          obtain ⟨stop, all⟩ := complete.trail
          obtain ⟨middle, before, behind⟩ := all.of_append
          obtain rfl := before.unique trail
          cases behind with
          | cons again =>
              by_cases slash : first.startsWithSlash = true
              · have significant : first.isSignificant = true := by
                  cases kind : first.kind <;> simp_all [Token.startsWithSlash, Token.isSignificant,
                    TokenKind.isComment]
                rw [List.find?_cons_of_pos significant] at found
                obtain rfl := Option.some.inj found
                exact ⟨token, rfl, .inr ⟨Scanner.next_slash again slash read, slash,
                  (Scanner.newline_of_next again).trans (Scanner.newline_of_next read).symm⟩⟩
              · have same := (Scanner.next_of_not_slash again slash reading).symm.trans read
                obtain rfl : first = token := by simpa using congrArg Prod.fst same
                rw [List.find?_cons_of_pos (sound.significant first here)] at found
                exact ⟨first, rfl, .inl (Option.some.inj found).symm⟩

end Cursor.Sound

/-- A significant token that is read lies within what is read. -/
theorem Ledger.token_within (ledger : Ledger origin c parts c') (sound : c.Sound origin)
    (complete : c'.Completes origin tokens) {index : Nat} {token : Token}
    (after : c.index ≤ index) (before : index < c'.index) (here : tokens[index]? = some token)
    (significant : token.isSignificant)
    : c.offset ≤ token.span.start ∧ token.span.stop ≤ c'.lastStop := by
  rw [complete.getElem? before] at here
  constructor
  · obtain ⟨scanner, reading, trail, entries, -⟩ := sound.trail
    obtain ⟨more, grown⟩ := ledger.grows
    obtain ⟨stop, -, all, -⟩ := ledger.sound.trail
    rw [← grown] at all here
    have size : c.index = c.behind.toList.length := by simp [Cursor.index]
    rw [List.getElem?_append_right (by omega)] at here
    obtain ⟨middle, front, behind⟩ := all.of_append
    obtain rfl := front.unique trail
    cases behind with
    | nil => simp at here
    | @cons _ _ _ _ first rest read others =>
        cases there : c.peek? with
        | none =>
            have none : c.ahead = [] := by simpa [Cursor.peek?] using there
            have same := (ledger.ended none).2.1
            rw [same] at grown
            simp at grown
        | some current =>
            obtain ⟨scanner, reading', after', trail', read', -⟩ := sound.head there
            obtain rfl := trail'.unique trail
            have start : current.span.start = first.span.start := by
              rw [Scanner.start_of_next read, Scanner.start_of_next read']
            rw [Cursor.Sound.offset_eq there, start]
            rcases List.mem_cons.mp (List.mem_of_getElem? here) with rfl | later
            · exact Nat.le_refl _
            · have bounds := (Trail.cons read .nil).offset_le
              obtain ⟨-, -, -, -, -, closes, behind', -⟩ := Scanner.next_splits read
              have inner := others.bounds later
              omega
  · obtain ⟨stop, -, all, -⟩ := ledger.sound.trail
    rcases ledger.sound.last with ⟨-, -, none⟩ | ⟨front, last, back, split, found, comments, place, stop'⟩
    · rw [none token (List.mem_of_getElem? here)] at significant
      cases significant
    · rw [stop']
      rw [split] at here all
      rcases Nat.lt_trichotomy index front.length with earlier | same | later
      · rw [List.getElem?_append_left earlier] at here
        have pairwise := (List.pairwise_append.mp all.pairwise).2.2 token
          (List.mem_of_getElem? here) last (List.mem_cons_self ..)
        have bounds := all.bounds (show last ∈ front ++ last :: back by simp)
        omega
      · subst same
        rw [List.getElem?_append_right (Nat.le_refl _), Nat.sub_self] at here
        obtain rfl := Option.some.inj here
        exact Nat.le_refl _
      · obtain ⟨more, rfl⟩ : ∃ more, index = front.length + (more + 1) :=
          ⟨index - front.length - 1, by omega⟩
        rw [List.getElem?_append_right (by omega), Nat.add_sub_cancel_left,
          List.getElem?_cons_succ] at here
        rw [comments token (List.mem_of_getElem? here)] at significant
        cases significant

-----------------------------------------------------------------------------------------
-- Parts for other parts
-----------------------------------------------------------------------------------------

/-- A part takes the place of parts that have the same semicolons. -/
theorem Ledger.exchange {part : Shown} (strays : List Shown)
    (ledger : Ledger origin c (strays ++ parts) c') (silent : literalTokens strays = [])
    (endless : endIndices strays = []) (literal : part.literal? = none)
    (fresh
      : ∀ extent, part.ending? = some extent → (c.index ≤ extent.tokens.last
        ∧ extent.tokens.last < c'.index) ∧ extent.tokens.last ∉ endIndices parts)
    (semicolons
      : ∀ tokens, c'.Completes origin tokens
        → (part.semicolons tokens).Perm (ownSemicolons tokens strays))
    (grounded : ∀ tokens, c'.Completes origin tokens → part.Grounded tokens)
    : Ledger origin c (part :: parts) c' where
  sound := ledger.sound
  grows := ledger.grows
  ended := ledger.ended
  lastIndex_le := ledger.lastIndex_le
  lastStop_le := ledger.lastStop_le
  offset_le := ledger.offset_le
  literals := by simpa [silent, literal] using ledger.literals
  ends := by
    have inner : (endIndices parts).Nodup := by simpa [endless] using ledger.ends
    cases ending : part.ending? with
    | none => simpa [ending] using inner
    | some extent => simpa [ending, inner] using (fresh extent ending).2
  within := by
    intro index member
    rw [endIndices_cons, List.mem_append] at member
    rcases member with own | inner
    · obtain ⟨extent, ending, rfl⟩ : ∃ extent, part.ending? = some extent
          ∧ extent.tokens.last = index := by simpa using own
      exact (fresh extent ending).1
    · exact ledger.within index (by simp [inner])
  semicolons := by
    intro tokens complete index
    rw [← ledger.semicolons tokens complete index, ownSemicolons_cons, ownSemicolons_append,
      List.count_append, List.count_append, (semicolons tokens complete).count_eq]
  grounded := by
    intro tokens complete shown member
    rcases List.mem_cons.mp member with rfl | inner
    · exact grounded tokens complete
    · exact ledger.grounded tokens complete shown (List.mem_append_right _ inner)

/-- A part without tokens of its own is read with what is in it. -/
theorem Covered.around {part : Shown} (covered : Covered origin c parts c')
    (literal : part.literal? = none) (ending : part.ending? = none) (empty : part.empty? = none)
    (loop : part.isForLoop = false)
    : Covered origin c (part :: parts) c' := by
  refine ⟨Ledger.exchange [] covered.toLedger rfl rfl literal ?_ ?_ ?_, covered.stuck⟩
  · intro extent known
    rw [ending] at known
    cases known
  · intro tokens _
    simp [Shown.semicolons, ending, empty, Shown.separators_of_not_isForLoop loop]
  · intro tokens _
    refine ⟨fun value site equal => ?_, fun extent known => ?_, fun extent known => ?_, fun known => ?_⟩
    · subst equal
      simp only [Shown.literal?] at literal
      split at literal <;> cases literal
    · rw [ending] at known
      cases known
    · rw [empty] at known
      cases known
    · rw [loop] at known
      cases known

/-- A semicolon is read as a statement of its own. -/
theorem Cursor.Sound.semicolon_covered (sound : c.Sound origin) (here : c.sees ";")
    : ∃ token, c.peek? = some token ∧ token.isPunctuator ";"
        ∧ Covered origin c [.stray token c.index] c.advance := by
  obtain ⟨token, there, -⟩ := Cursor.sees_eq_true.mp here
  have semicolon := sound.isPunctuator_of_sees there here rfl (by decide)
  have kind : token.kind = .punctuator := by
    simp only [Token.isPunctuator, Bool.and_eq_true, beq_iff_eq] at semicolon
    exact semicolon.1
  refine ⟨token, there, semicolon, sound.advance_ledger there ?_ rfl ?_ ?_, fun arrow => ?_⟩
  · simp [Shown.stray, Shown.literal?, Token.literal?, kind]
  · intro tokens
    simp [Shown.stray, Shown.semicolons, Shown.ending?, Semicolons.terminated?, Semicolons.isTerminated,
      Shown.empty?, Shown.separators, semicolon]
  · intro tokens place part member
    obtain rfl := List.mem_singleton.mp member
    constructor
    case empty =>
      intro extent equal
      obtain rfl := Option.some.inj equal
      exact ⟨rfl, token, place, semicolon, rfl⟩
    case template => rintro _ _ ⟨⟩
    case ending => rintro _ ⟨⟩
    case separators => rintro ⟨⟩
  · simp only [Cursor.atArrow, there, Option.any_some, Token.isPunctuator, Bool.and_eq_true,
      beq_iff_eq] at arrow semicolon
    rw [semicolon.2] at arrow
    exact absurd arrow.2 (by decide)

-----------------------------------------------------------------------------------------
-- Where constructs begin and end
-----------------------------------------------------------------------------------------

/-- An extent that begins at the token at a cursor. -/
def Extent.BeginsAt (extent : Extent) (c : Cursor) : Prop :=
  extent.tokens.first = c.index ∧ extent.span.start = c.offset

/-- An extent that ends at the last token behind a cursor. -/
def Extent.EndsAt (extent : Extent) (c : Cursor) : Prop :=
  extent.tokens.last = c.lastIndex ∧ extent.span.stop = c.lastStop

/-- A semicolon alone may be read as whatever stands for one. -/
theorem Covered.empty {part : Shown} {token : Token} {extent : Extent}
    (stray : Covered origin c [.stray token c.index] c.advance) (here : c.peek? = some token)
    (begins : Extent.BeginsAt extent c) (stops : Extent.EndsAt extent c.advance)
    (empty : part.empty? = some extent)
    : Covered origin c [part] c.advance := by
  obtain ⟨first, start⟩ := begins
  obtain ⟨last, stop⟩ := stops
  rw [Cursor.advance_lastIndex here] at last
  rw [Cursor.advance_lastStop here] at stop
  rw [Cursor.Sound.offset_eq here] at start
  obtain ⟨literal, ending, loop, semicolons⟩ := Shown.of_empty empty
  obtain ⟨-, -, -, own⟩ := Shown.of_stray token c.index
  refine ⟨Ledger.exchange [.stray token c.index] stray.toLedger rfl rfl literal ?_ ?_ ?_,
    stray.stuck⟩
  · intro other known
    rw [ending] at known
    cases known
  · intro tokens _
    simp [semicolons, own, last]
  · intro tokens complete
    obtain ⟨-, -, alone, -⟩ := stray.grounded tokens complete _ (List.mem_singleton.mpr rfl)
    obtain ⟨-, found, place, isSemicolon, spans⟩ := alone _ rfl
    refine ⟨fun value site equal => ?_, fun other known => ?_, fun other known => ?_, fun known => ?_⟩
    · subst equal
      cases empty
    · rw [ending] at known
      cases known
    · obtain rfl := Option.some.inj (empty.symm.trans known)
      refine ⟨first.trans last.symm, found, last ▸ place, isSemicolon, ?_⟩
      rw [← spans, ← show (⟨extent.span.start, extent.span.stop⟩ : Span) = token.span by
        rw [start, stop]]
    · rw [loop] at known
      cases known

/-- The end of a construct whose content ends at a cursor: behind a semicolon that is there, or
at that cursor if it may end freely. -/
def EndsFrom (part : Shown) (m c' : Cursor) : Prop :=
  (m.sees ";" ∧ m.advance = c') ∨ (¬m.sees ";" ∧ (part.isDoWhile ∨ endsFreely m) ∧ m = c')

theorem EndsFrom.of_consumeSemicolon {part : Shown} {a : Unit}
    (run : Parser.consumeSemicolon m = .ok (a, c'))
    : EndsFrom part m c' := by
  rcases Parser.consumeSemicolon_ok.mp run with own | ⟨absent, free, same⟩
  · exact .inl own
  · exact .inr ⟨absent, .inr free, same⟩

/-- Such an end is what the parser of ends reads. -/
theorem EndsFrom.reads {part : Shown} (ends : EndsFrom part m c')
    : part.endParser m = .ok ((), c') := by
  cases loop : part.isDoWhile with
  | true =>
      simp only [Shown.endParser, loop, if_true, Parser.map_ok, Parser.eat_ok]
      rcases ends with ⟨here, rfl⟩ | ⟨absent, -, rfl⟩
      · exact ⟨true, .inl ⟨rfl, here, rfl⟩, trivial⟩
      · exact ⟨false, .inr ⟨rfl, absent, rfl⟩, trivial⟩
  | false =>
      simp only [Shown.endParser, loop, Bool.false_eq_true, if_false, Parser.consumeSemicolon_ok]
      exact ends.imp_right fun ⟨absent, free, same⟩ =>
        ⟨absent, free.resolve_left (by simp [loop]), same⟩

theorem EndsFrom.lastStop_le {part : Shown} (ends : EndsFrom part m c') (sound : m.Sound origin)
    : m.lastStop ≤ c'.lastStop := by
  rcases ends with ⟨here, rfl⟩ | ⟨-, -, rfl⟩
  · obtain ⟨token, there, -⟩ := Cursor.sees_eq_true.mp here
    have taken := sound.offset_lt_advance there
    have inside := sound.lastStop_le_offset
    omega
  · exact Nat.le_refl _

/-- A construct that may end with a semicolon is read with its content and that semicolon. -/
theorem Held.terminate {part : Shown} {extent : Extent} (held : Held origin c parts m)
    (sound : c.Sound origin) (rises : c.offset < m.lastStop) (ends : EndsFrom part m c')
    (ending : part.ending? = some extent) (stops : Extent.EndsAt extent c')
    (tail : ∀ value, part.tail? = some value → value.span.stop = m.lastStop)
    : Covered origin c (part :: parts) c' := by
  obtain ⟨above, below, before, token, after, split, index, found, stop, comments⟩ :=
    sound.last_of_rises held.toLedger rises
  have literal := (Shown.of_ending ending).1
  have size : m.index = m.behind.toList.length := by simp [Cursor.index]
  -- The content ends at a token that is no semicolon.
  have content {tokens : List Token} (complete : m.Completes origin tokens)
      : tokens[m.lastIndex]? = some token ∧ token.isPunctuator ";" = false := by
    have here : tokens[m.lastIndex]? = some token := by
      rw [complete.getElem? below, split, ← index]
      simp
    refine ⟨here, Bool.eq_false_iff.mpr fun semicolon => ?_⟩
    have own := (held.mem_semicolons complete).mpr
      ⟨above, below, by simpa [isSemicolonAt, here] using semicolon⟩
    have := held.enclosed tokens complete _ (List.mem_append_right _ own)
    omega
  have next {tokens : List Token} (complete : m.Completes origin tokens)
      : nextSignificant? tokens m.lastIndex = (tokens.drop m.index).find? Token.isSignificant := by
    obtain ⟨more, rfl⟩ := complete.grows
    have behind : (m.behind.toList ++ more).drop (m.lastIndex + 1) = after ++ more := by
      rw [split, ← index]
      simp
    rw [nextSignificant?, behind, size, List.drop_left, List.find?_append,
      List.find?_eq_none.mpr fun comment member => by simp [comments comment member]]
    rfl
  have outside : m.lastIndex ∉ endIndices parts := fun member => by
    have := held.enclosed _ (Cursor.Completes.behind held.sound) _ (List.mem_append_left _ member)
    omega
  have reads := ends.reads
  have ended := stops.1
  obtain ⟨last, spanStop⟩ := stops
  rcases ends with ⟨here, rfl⟩ | ⟨absent, free, rfl⟩
  · obtain ⟨semicolon, there, isSemicolon, stray⟩ := held.sound.semicolon_covered here
    rw [Cursor.advance_lastIndex there] at last
    rw [Cursor.advance_lastStop there] at spanStop
    have onward := held.sound.index_lt_advance there
    have place {tokens : List Token} (complete : m.advance.Completes origin tokens)
        : tokens[m.index]? = some semicolon := by
      obtain ⟨comments, behind, -⟩ := Cursor.Sound.advance_behind there
      rw [complete.getElem? onward, behind, size]
      simp
    have whole := (held.toCovered.trans stray).perm List.perm_append_comm
    refine ⟨Ledger.exchange _ whole.toLedger rfl rfl literal ?_ ?_ ?_, whole.stuck⟩
    · intro other known
      obtain rfl := Option.some.inj (ending.symm.trans known)
      have start := held.index_le
      refine ⟨by omega, fun member => ?_⟩
      have := (held.within _ member).2
      omega
    · intro tokens complete
      have own : isSemicolonAt tokens m.index := by
        simpa [isSemicolonAt, place complete] using isSemicolon
      rw [Shown.semicolons_of_ending ending, last, if_pos own]
      exact .refl _
    · intro tokens complete
      have complete' := complete.of_ledger stray.toLedger
      have significant := held.sound.significant semicolon there
      refine .of_ends ending ⟨m, m.advance, token, complete'.grows, reads, complete.grows, ended,
        (content complete').1, found, (content complete').2, ?_,
        .inl ⟨here, semicolon, by rw [last, place complete], isSemicolon, ?_, spanStop⟩⟩
      · intro value known
        rw [tail value known, stop]
      · rw [next complete']
        have listed : tokens.drop m.index = semicolon :: tokens.drop (m.index + 1) := by
          obtain ⟨bound, same⟩ := List.getElem?_eq_some_iff.mp (place complete)
          rw [List.drop_eq_getElem_cons bound, same]
        rw [listed, List.find?_cons_of_pos significant]
  · refine ⟨Ledger.exchange [] held.toLedger rfl rfl literal ?_ ?_ ?_, held.stuck⟩
    · intro other known
      obtain rfl := Option.some.inj (ending.symm.trans known)
      exact ⟨by omega, last ▸ outside⟩
    · intro tokens complete
      have none : isSemicolonAt tokens m.lastIndex = false := by
        simp [isSemicolonAt, content complete]
      rw [Shown.semicolons_of_ending ending, last, if_neg (by simp [none])]
      exact .refl _
    · intro tokens complete
      refine .of_ends ending ⟨m, m, token, complete.grows, reads, complete.grows, ended,
        (content complete).1, found, (content complete).2, ?_, .inr
        ⟨absent, last.symm, by rw [spanStop, stop], free.imp_right fun free following known => ?_⟩⟩
      · intro value known
        rw [tail value known, stop]
      · rw [next complete] at known
        obtain ⟨current, there, same⟩ := held.sound.next_of_completes complete known
        rcases same with rfl | ⟨slash, -, newline⟩
        · exact free following there
        · rcases free current there with brace | breaks
          · simp only [Token.isPunctuator, Bool.and_eq_true, beq_iff_eq] at brace
            simp [Token.startsWithSlash, brace] at slash
          · exact .inr (newline.trans breaks)

-----------------------------------------------------------------------------------------
-- Expressions and statements
-----------------------------------------------------------------------------------------

/-- An expression is read from one cursor to another. -/
structure ExpressionRead (origin : Scanner) (c : Cursor) (e : Expression) (c' : Cursor) : Prop
    extends Held origin c e.shown c' where
  start : e.span.start = c.offset
  stop : e.span.stop = c'.lastStop
  rises : c.offset < c'.lastStop

theorem ExpressionRead.span {e : Expression} (read : ExpressionRead origin c e c')
    : e.span = ⟨c.offset, c'.lastStop⟩ := by
  rw [← read.start, ← read.stop]

/-- A statement is read from one cursor to another. -/
structure StatementRead (origin : Scanner) (c : Cursor) (s : Statement) (c' : Cursor) : Prop where
  covered : ∀ enclosing, Covered origin c (s.shown enclosing) c'
  first : s.extent.tokens.first = c.index
  rises : c.offset < c'.lastStop

/-- An expression form is read: with the span of the tokens that were taken it is an operand. -/
structure OperandFormRead (origin : Scanner) (c : Cursor) (form : Span → Expression) (c' : Cursor)
    : Prop where
  held : ∀ span, span = ⟨c.offset, c'.lastStop⟩ → Held origin c (form span).shown c'
  spans : ∀ span, (form span).span = span
  rises : c.offset < c'.lastStop

/-- A statement form is read from a cursor on: with the extent of the tokens from its own beginning
up to the last one it is a statement, however it is marked. -/
structure StatementFormRead (origin : Scanner) (beginning c : Cursor) (form : Placement → Statement)
    (c' : Cursor) : Prop where
  covered
    : ∀ placement : Placement, Extent.BeginsAt placement.toExtent beginning →
        Extent.EndsAt placement.toExtent c' → ∀ enclosing,
        Covered origin c ((form placement).shown enclosing) c'
  extent : ∀ placement, (form placement).extent = placement.toExtent
  rises : c.offset < c'.lastStop

/-- Tokens that show nothing may come before what a statement form shows. -/
theorem StatementFormRead.after {beginning : Cursor} {form : Placement → Statement}
    (read : StatementFormRead origin beginning m form c') (first : Held origin c [] m)
    : StatementFormRead origin beginning c form c' :=
  ⟨fun placement begins stops enclosing =>
    first.toCovered.trans (read.covered placement begins stops enclosing), read.extent,
    Nat.lt_of_le_of_lt first.offset_le read.rises⟩

/-- The form of a statement without tokens of its own that show anything is read with what is
in it. -/
theorem Covered.form {beginning : Cursor} {form : Placement → Statement}
    (covered : Covered origin c parts c') (rises : c.offset < c'.lastStop)
    (plain
      : ∀ placement enclosing, (Shown.statement (form placement) enclosing).ending? = none
        ∧ (Shown.statement (form placement) enclosing).empty? = none
        ∧ (Shown.statement (form placement) enclosing).isForLoop = false)
    (extent : ∀ placement, (form placement).extent = placement.toExtent)
    (shown
      : ∀ placement enclosing,
        (form placement).shown enclosing = .statement (form placement) enclosing :: parts)
    : StatementFormRead origin beginning c form c' := by
  refine ⟨fun placement _ _ enclosing => ?_, extent, rises⟩
  obtain ⟨ending, empty, loop⟩ := plain placement enclosing
  rw [shown]
  exact covered.around rfl ending empty loop

/-- The form of a statement that may end with a semicolon is read with its content. -/
theorem Held.terminatedForm {beginning : Cursor} {form : Placement → Statement}
    (held : Held origin c parts m) (sound : c.Sound origin) (rises : c.offset < m.lastStop)
    (ends : ∀ placement enclosing, EndsFrom (.statement (form placement) enclosing) m c')
    (ending
      : ∀ placement enclosing,
        (Shown.statement (form placement) enclosing).ending? = some placement.toExtent)
    (tail
      : ∀ placement enclosing value, (Shown.statement (form placement) enclosing).tail? = some value
        → value.span.stop = m.lastStop)
    (shown
      : ∀ placement enclosing,
        (form placement).shown enclosing = .statement (form placement) enclosing :: parts)
    : StatementFormRead origin beginning c form c' where
  covered := by
    intro placement _ stops enclosing
    rw [shown]
    exact held.terminate sound rises (ends ..) (ending ..) stops (tail placement enclosing)
  extent := by
    intro placement
    have known := ending placement .program
    simp only [Shown.ending?, Semicolons.terminated?] at known
    split at known
    · exact Option.some.inj known
    · cases known
  rises := by
    have reach := (ends ⟨⟨⟨0, 0⟩, ⟨0, 0⟩⟩, false, false⟩ .program).lastStop_le held.sound
    omega

/-- What is known of the constructs of a level. -/
structure Level.Covers (origin : Scanner) (level : Level) : Prop where
  statement
    : ∀ {inGenerator c s c'}, c.Sound origin → level.statement inGenerator c = .ok (s, c')
      → StatementRead origin c s c'
  assignment
    : ∀ {inGenerator allowIn c e c'}, c.Sound origin
      → level.assignment inGenerator allowIn c = .ok (e, c') → ExpressionRead origin c e c'
  unary
    : ∀ {inGenerator c e c'}, c.Sound origin → level.unary inGenerator c = .ok (e, c')
      → ExpressionRead origin c e c'
  heritage
    : ∀ {inGenerator c e c'}, c.Sound origin → level.heritage inGenerator c = .ok (e, c')
      → ExpressionRead origin c e c'
  construct
    : ∀ {inGenerator c e c'}, c.Sound origin → c.Plain
      → level.construct inGenerator c = .ok (e, c') → ExpressionRead origin c e c'

/-- A class member form is read from a cursor on: with the extent of the tokens from its own
beginning up to the last one it is a class member. -/
structure MemberFormRead (origin : Scanner) (beginning c : Cursor) (form : Extent → ClassMember)
    (c' : Cursor) : Prop where
  covered
    : ∀ extent, Extent.BeginsAt extent beginning → Extent.EndsAt extent c' → ∀ enclosing,
        Covered origin c (.classMember (form extent) enclosing :: (form extent).shown) c'
  rises : c.offset < c'.lastStop

/-- Moving past the token with which a literal begins covers that literal, what is in it apart. -/
theorem Cursor.Sound.literal_held {token : Token} {part : Shown} {key : TokenKind × Span}
    (sound : c.Sound origin) (here : c.peek? = some token) (begins : token.literal? = some key)
    (literal : part.literal? = some key)
    (quoted : ∀ value site, part = .template value site → value.Quoted)
    : Held origin c [part] c.advance := by
  obtain ⟨ending, empty, loop, semicolons⟩ := Shown.of_literal literal
  refine ⟨⟨sound.advance_ledger here ?_ ?_ ?_ ?_, fun arrow => ?_⟩, ?_⟩
  · simp [literal, begins]
  · simp [ending]
  · simp [semicolons, Token.not_isPunctuator_of_literal? begins]
  · intro tokens _ shown member
    obtain rfl := List.mem_singleton.mp member
    refine ⟨quoted, fun extent known => ?_, fun extent known => ?_, fun known => ?_⟩
    · rw [ending] at known
      cases known
    · rw [empty] at known
      cases known
    · rw [loop] at known
      cases known
  · simp [Cursor.atArrow, here, Token.not_isPunctuator_of_literal? begins] at arrow
  · intro tokens _ index member
    simp [ending, semicolons] at member

/-- Moving past a string literal covers it. -/
theorem Cursor.Sound.string_held {token : Token} (sound : c.Sound origin)
    (here : c.peek? = some token) (kind : token.kind = .string) (site : LiteralSite)
    : Held origin c [.string token.span site] c.advance :=
  sound.literal_held here (by rw [Token.literal?, kind]) rfl (by simp)

end Grammar

end ScriptStyle
