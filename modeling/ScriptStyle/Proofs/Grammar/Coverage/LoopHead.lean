import ScriptStyle.Proofs.Grammar.Coverage.Construct

/-!
The head of a loop with three parts. The semicolons in it that lie in none of the parts are the
two that separate these.
-/

namespace ScriptStyle.Grammar

variable {origin : Scanner} {c c' : Cursor} {tokens : List Token} {index : Nat}

/-- A part of the head of a loop, which may be absent: its span and what is shown of it. -/
abbrev HeadPart := Option Span × List Shown

/-- A part of the head of a loop is read from one cursor to another. -/
structure HeadPartRead (origin : Scanner) (c : Cursor) (part : HeadPart) (c' : Cursor) : Prop
    extends Held origin c part.2 c' where
  spans : ∀ span, part.1 = some span → span = ⟨c.offset, c'.lastStop⟩
  absent : part.1 = none → part.2 = []

/-- A semicolon is read between two parts. -/
structure SeparatorRead (origin : Scanner) (c : Cursor) (token : Token) : Prop
    extends Covered origin c [.stray token c.index] c.advance where
  here : c.peek? = some token

/-- The head of a loop is read, with the cursors at its first part, its two semicolons and its
last token. -/
structure LoopHeadRead (origin : Scanner) (c start first second last c' : Cursor)
    (semicolon semicolon' : Token) (init test update : HeadPart) : Prop where
  sound : c.Sound origin
  opens : Held origin c [] start
  init : HeadPartRead origin start init first
  separator : SeparatorRead origin first semicolon
  test : HeadPartRead origin first.advance test second
  separator' : SeparatorRead origin second semicolon'
  update : HeadPartRead origin second.advance update last
  closes : Held origin last [] c'

/-- A semicolon that belongs to a part of what a head part shows lies in that head part. -/
theorem HeadPartRead.encloses {part : HeadPart} (read : HeadPartRead origin c part c')
    (sound : c.Sound origin) (complete : c'.Completes origin tokens) {token : Token}
    (own : index ∈ ownSemicolons tokens part.2) (here : tokens[index]? = some token)
    (significant : token.isSignificant)
    : ∃ span, part.1 = some span ∧ span.encloses token.span := by
  cases found : part.1 with
  | none =>
      rw [read.absent found] at own
      cases own
  | some span =>
      obtain ⟨after, before, -⟩ := (read.mem_semicolons complete).mp own
      have within := read.toLedger.token_within sound complete after before here significant
      refine ⟨span, rfl, ?_⟩
      rw [read.spans span found]
      simpa [Span.encloses] using within

namespace SeparatorRead

variable {token : Token}

/-- What is at the index of a separator. -/
theorem place (read : SeparatorRead origin c token) (complete : c.advance.Completes origin tokens)
    : ∃ found, tokens[c.index]? = some found ∧ found.isPunctuator ";"
        ∧ found.span = ⟨c.offset, c.advance.lastStop⟩ := by
  obtain ⟨-, -, alone, -⟩ := read.grounded tokens complete _ (List.mem_singleton.mpr rfl)
  obtain ⟨-, found, place, semicolon, span⟩ := alone _ rfl
  refine ⟨found, place, semicolon, ?_⟩
  rw [← span, Cursor.Sound.offset_eq read.here, Cursor.advance_lastStop read.here]

end SeparatorRead

namespace LoopHeadRead

variable {start first second last : Cursor} {semicolon semicolon' : Token}
  {init test update : HeadPart}

theorem covered
    (head : LoopHeadRead origin c start first second last c' semicolon semicolon' init test update)
    : Covered origin c ([.stray semicolon first.index, .stray semicolon' second.index]
        ++ (init.2 ++ test.2 ++ update.2)) c' := by
  have whole := head.opens.toCovered.trans (head.init.toCovered.trans (head.separator.toCovered.trans
    (head.test.toCovered.trans (head.separator'.toCovered.trans
      (head.update.toCovered.trans head.closes.toCovered)))))
  refine whole.perm ?_
  have middle : ((init.2 ++ test.2) ++ .stray semicolon' second.index :: update.2).Perm
      (.stray semicolon' second.index :: ((init.2 ++ test.2) ++ update.2)) :=
    List.perm_middle
  simp only [List.append_assoc, List.nil_append, List.append_nil, List.cons_append] at middle ⊢
  exact List.perm_middle.trans (middle.cons _)

/-- The semicolons in the head that lie in none of its parts are its separators. -/
theorem mem_separators (index : Nat)
    (head : LoopHeadRead origin c start first second last c' semicolon semicolon' init test update)
    (complete : c'.Completes origin tokens)
    : (c.index ≤ index ∧ index < c'.index ∧ ∃ token, tokens[index]? = some token
        ∧ token.isPunctuator ";" ∧ ∀ span, init.1 = some span ∨ test.1 = some span
          ∨ update.1 = some span → span.encloses token.span = false)
      ↔ index = first.index ∨ index = second.index := by
  have lastComplete := complete.of_ledger head.closes.toLedger
  have secondComplete := lastComplete.of_ledger head.update.toLedger
  have testComplete := secondComplete.of_ledger head.separator'.toLedger
  have firstComplete := testComplete.of_ledger head.test.toLedger
  have initComplete := firstComplete.of_ledger head.separator.toLedger
  have own : index ∈ ownSemicolons tokens
      ([.stray semicolon first.index, .stray semicolon' second.index]
        ++ (init.2 ++ test.2 ++ update.2))
      ↔ index = first.index ∨ index = second.index ∨ index ∈ ownSemicolons tokens init.2
        ∨ index ∈ ownSemicolons tokens test.2 ∨ index ∈ ownSemicolons tokens update.2 := by
    simp only [ownSemicolons_append, List.mem_append, ownSemicolons_cons, ownSemicolons_nil,
      List.append_nil, (Shown.of_stray semicolon first.index).2.2.2,
      (Shown.of_stray semicolon' second.index).2.2.2, List.mem_singleton,
      or_assoc]
  obtain ⟨token, place, isSemicolon, span⟩ := head.separator.place firstComplete
  obtain ⟨token', place', isSemicolon', span'⟩ := head.separator'.place secondComplete
  have taken := head.init.sound.offset_lt_advance head.separator.here
  have taken' := head.test.sound.offset_lt_advance head.separator'.here
  have onward := head.test.offset_le
  have reach := head.init.sound.lastStop_le_offset.1
  have reach' := head.test.sound.lastStop_le_offset.1
  constructor
  · rintro ⟨after, before, found, here, isSemicolon, outside⟩
    have significant : found.isSignificant := by
      simp only [Token.isPunctuator, Bool.and_eq_true, beq_iff_eq] at isSemicolon
      rw [Token.isSignificant, isSemicolon.1]
      rfl
    have inside := (head.covered.mem_semicolons complete).mpr
      ⟨after, before, by simpa [isSemicolonAt, here] using isSemicolon⟩
    rcases own.mp inside with same | same | inner | inner | inner
    · exact .inl same
    · exact .inr same
    · obtain ⟨outer, known, encloses⟩ :=
        head.init.encloses head.opens.sound initComplete inner here significant
      simp [outside outer (.inl known)] at encloses
    · obtain ⟨outer, known, encloses⟩ :=
        head.test.encloses head.separator.sound testComplete inner here significant
      simp [outside outer (.inr (.inl known))] at encloses
    · obtain ⟨outer, known, encloses⟩ :=
        head.update.encloses head.separator'.sound lastComplete inner here significant
      simp [outside outer (.inr (.inr known))] at encloses
  · intro same
    obtain ⟨after, before, -⟩ := (head.covered.mem_semicolons complete).mp
      (own.mpr (same.elim .inl (.inr ∘ .inl)))
    refine ⟨after, before, ?_⟩
    have spans {outer : Span} (known : init.1 = some outer ∨ test.1 = some outer ∨ update.1 = some outer)
        : outer = ⟨start.offset, first.lastStop⟩ ∨ outer = ⟨first.advance.offset, second.lastStop⟩
          ∨ outer = ⟨second.advance.offset, last.lastStop⟩ :=
      known.imp (head.init.spans outer) (.imp (head.test.spans outer) (head.update.spans outer))
    rcases same with rfl | rfl
    · refine ⟨token, place, isSemicolon, fun outer known => ?_⟩
      rcases spans known with rfl | rfl | rfl
      all_goals
        simp only [span, Span.encloses, Bool.and_eq_false_iff, decide_eq_false_iff_not]
        omega
    · refine ⟨token', place', isSemicolon', fun outer known => ?_⟩
      rcases spans known with rfl | rfl | rfl
      all_goals
        simp only [span', Span.encloses, Bool.and_eq_false_iff, decide_eq_false_iff_not]
        omega

end LoopHeadRead

end ScriptStyle.Grammar
