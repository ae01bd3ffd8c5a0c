import ScriptStyle.Proofs.Text.Slices
import ScriptStyle.Text.Lines

/-!
Where lines begin: behind every line terminator, though not between the two halves of a CR LF
pair. Two offsets lie in one line as long as no terminator stands between them.
-/

namespace ScriptStyle.Text

variable {text before gap after : List Char} {c : Char} {offset start : Nat}

-----------------------------------------------------------------------------------------
-- Line ends
-----------------------------------------------------------------------------------------

/-- A character ends a line if it is a terminator and not the first half of a CR LF pair. -/
def EndsLine (c : Char) (after : List Char) : Prop :=
  isLineTerminator c ∧ ¬(c = '\r' ∧ after.head? = some '\n')

/-- A line of a text begins some bytes into it, behind a character that ends one. -/
def LineBegins (text : List Char) (start : Nat) : Prop :=
  ∃ before c after, text = before ++ c :: after ∧ EndsLine c after
    ∧ start = byteLength (before ++ [c])

theorem lineBegins_nil
    : ¬LineBegins [] start := by
  rintro ⟨before, c, after, whole, -⟩
  cases before <;> cases whole

/-- A line begins behind the first character of a text, or later. -/
theorem lineBegins_cons {rest : List Char}
    : LineBegins (c :: rest) start
      ↔ EndsLine c rest ∧ start = c.utf8Size
        ∨ ∃ further, LineBegins rest further ∧ start = c.utf8Size + further := by
  constructor
  · rintro ⟨before, d, after, whole, ends, rfl⟩
    cases before with
    | nil =>
        obtain ⟨rfl, rfl⟩ := List.cons.inj whole
        exact .inl ⟨ends, by simp⟩
    | cons first before =>
        obtain ⟨rfl, rfl⟩ := List.cons.inj whole
        exact .inr ⟨_, ⟨before, d, after, rfl, ends, rfl⟩, by simp⟩
  · rintro (⟨ends, rfl⟩ | ⟨further, ⟨before, d, after, rfl, ends, rfl⟩, rfl⟩)
    · exact ⟨[], c, rest, rfl, ends, by simp⟩
    · exact ⟨c :: before, d, after, rfl, ends, by simp⟩

/-- A line begins behind a CR LF pair, and none between its halves. -/
theorem lineBegins_pair {rest : List Char}
    : LineBegins ('\r' :: '\n' :: rest) start
      ↔ start = 2 ∨ ∃ further, LineBegins rest further ∧ start = 2 + further := by
  have first : ¬EndsLine '\r' ('\n' :: rest) := fun ends => ends.2 ⟨rfl, rfl⟩
  have second : EndsLine '\n' rest := ⟨rfl, fun pair => absurd pair.1 (by decide)⟩
  have sizes : '\r'.utf8Size = 1 ∧ '\n'.utf8Size = 1 := by decide
  simp only [lineBegins_cons, first, second, sizes, false_and, true_and, false_or]
  constructor
  · rintro ⟨_, rfl | ⟨further, begins, rfl⟩, rfl⟩
    · exact .inl rfl
    · exact .inr ⟨further, begins, by omega⟩
  · rintro (rfl | ⟨further, begins, rfl⟩)
    · exact ⟨1, .inl rfl, rfl⟩
    · exact ⟨1 + further, .inr ⟨further, begins, rfl⟩, by omega⟩

/-- Where a terminator stands, a line ends before what follows, unless that begins with the second
half of a CR LF pair. -/
theorem endsLine_of_mem (member : c ∈ gap) (terminator : isLineTerminator c)
    (unpaired : after.head? ≠ some '\n')
    : ∃ front d back, gap = front ++ d :: back ∧ EndsLine d (back ++ after) := by
  obtain ⟨front, back, rfl⟩ := List.append_of_mem member
  by_cases paired : c = '\r' ∧ (back ++ after).head? = some '\n'
  · -- The second half of the pair is in the gap too, and ends the line.
    obtain ⟨rfl, next⟩ := paired
    cases back with
    | nil => exact absurd next unpaired
    | cons second back =>
        obtain rfl := Option.some.inj next
        exact ⟨front ++ ['\r'], '\n', back, by simp, rfl, fun pair => absurd pair.1 (by decide)⟩
  · exact ⟨front, c, back, rfl, terminator, paired⟩

/-- The offsets that are collected are those at which lines begin. -/
theorem mem_laterLineStarts
    : start ∈ laterLineStarts offset text
      ↔ ∃ further, LineBegins text further ∧ start = offset + further := by
  fun_induction laterLineStarts offset text with
  | case1 offset => simp [lineBegins_nil]
  | case2 offset rest ih =>
      simp only [List.mem_cons, ih, lineBegins_pair]
      constructor
      · rintro (rfl | ⟨further, begins, rfl⟩)
        · exact ⟨2, .inl rfl, rfl⟩
        · exact ⟨2 + further, .inr ⟨further, begins, rfl⟩, by omega⟩
      · rintro ⟨_, rfl | ⟨further, begins, rfl⟩, rfl⟩
        · exact .inl rfl
        · exact .inr ⟨further, begins, by omega⟩
  | case3 offset c rest unpaired next terminator ih =>
      have ends : EndsLine c rest := ⟨terminator, fun ⟨first, second⟩ => by
        obtain ⟨more, rfl⟩ := List.head?_eq_some_iff.mp second
        exact unpaired more first rfl⟩
      simp only [List.mem_cons, ih, lineBegins_cons, ends, true_and]
      constructor
      · rintro (rfl | ⟨further, begins, rfl⟩)
        · exact ⟨c.utf8Size, .inl rfl, rfl⟩
        · exact ⟨c.utf8Size + further, .inr ⟨further, begins, rfl⟩, Nat.add_assoc ..⟩
      · rintro ⟨_, rfl | ⟨further, begins, rfl⟩, rfl⟩
        · exact .inl rfl
        · exact .inr ⟨further, begins, (Nat.add_assoc ..).symm⟩
  | case4 offset c rest unpaired next goesOn ih =>
      have goes : ¬EndsLine c rest := fun ends => goesOn ends.1
      simp only [ih, lineBegins_cons, goes, false_and, false_or]
      constructor
      · rintro ⟨further, begins, rfl⟩
        exact ⟨c.utf8Size + further, ⟨further, begins, rfl⟩, Nat.add_assoc ..⟩
      · rintro ⟨_, ⟨further, begins, rfl⟩, rfl⟩
        exact ⟨further, begins, (Nat.add_assoc ..).symm⟩

-----------------------------------------------------------------------------------------
-- Lines
-----------------------------------------------------------------------------------------

/-- Two bounds have as many numbers below them exactly if no number lies between them. -/
theorem countP_le_eq_iff {numbers : List Nat} {low high : Nat} (ordered : low ≤ high)
    : numbers.countP (· ≤ low) = numbers.countP (· ≤ high)
      ↔ ∀ number ∈ numbers, number ≤ high → number ≤ low := by
  induction numbers with
  | nil => simp
  | cons number others ih =>
      have fewer : others.countP (· ≤ low) ≤ others.countP (· ≤ high) := by
        apply List.countP_mono_left
        intro other _ below
        simp only [decide_eq_true_eq] at below ⊢
        omega
      simp only [List.countP_cons, List.forall_mem_cons, ← ih, decide_eq_true_eq]
      split <;> split <;> omega

namespace LineIndex

theorem lineAt_le_lineAt (index : LineIndex) {low high : Nat} (ordered : low ≤ high)
    : index.lineAt low ≤ index.lineAt high := by
  apply List.countP_mono_left
  intro start _ below
  simp only [decide_eq_true_eq] at below ⊢
  omega

/-- Around a stretch of one line two offsets lie in one line if both parts beside it do. -/
theorem sameLine_around (index : LineIndex) {first second third last : Nat}
    (before : first ≤ second) (behind : third ≤ last) (within : index.sameLine second third)
    : index.sameLine first last = (index.sameLine first second && index.sameLine third last) := by
  have opens := index.lineAt_le_lineAt before
  have closes := index.lineAt_le_lineAt behind
  rw [sameLine, beq_iff_eq] at within
  rw [Bool.eq_iff_iff]
  simp only [sameLine, Bool.and_eq_true, beq_iff_eq]
  omega

/-- Two offsets lie in one line exactly if no line begins behind the first and not behind
the second. -/
theorem sameLine_iff {low high : Nat} (ordered : low ≤ high)
    : (ofText text).sameLine low high
      ↔ ∀ start, LineBegins text start → start ≤ high → start ≤ low := by
  rw [sameLine, beq_iff_eq, lineAt, lineAt, countP_le_eq_iff ordered]
  simp only [ofText, List.forall_mem_cons, Nat.zero_le, implies_true, true_and,
    mem_laterLineStarts, Nat.zero_add, exists_eq_right']

/-- Offsets with no terminator between them lie in one line. -/
theorem sameLine_of_unbroken (unbroken : gap.any isLineTerminator = false)
    : (ofText (before ++ (gap ++ after))).sameLine (byteLength before)
        (byteLength (before ++ gap)) := by
  rw [sameLine_iff (by rw [byteLength_append]; omega)]
  rintro start ⟨front, c, rest, whole, ends, rfl⟩ inside
  refine Nat.not_lt.mp fun behind => ?_
  have member : c ∈ gap := mem_of_ends_between whole behind inside
  exact List.any_eq_false.mp unbroken c member ends.1

/-- Offsets with a terminator between them lie in two lines, unless the second offset is between
the halves of a CR LF pair. -/
theorem not_sameLine_of_broken (broken : gap.any isLineTerminator)
    (unpaired : after.head? ≠ some '\n')
    : (ofText (before ++ (gap ++ after))).sameLine (byteLength before)
        (byteLength (before ++ gap)) = false := by
  obtain ⟨c, member, terminator⟩ := List.any_eq_true.mp broken
  obtain ⟨front, d, back, rfl, ends⟩ := endsLine_of_mem member terminator unpaired
  rw [← Bool.not_eq_true, sameLine_iff (by rw [byteLength_append]; omega)]
  intro inside
  have whole : before ++ (front ++ d :: back ++ after)
      = before ++ front ++ d :: (back ++ after) := by
    simp
  have below := inside _ ⟨_, d, _, whole, ends, rfl⟩
  have positive := d.utf8Size_pos
  simp only [byteLength_append, byteLength_cons, byteLength_nil] at below
  omega

/-- A stretch of a text that ends with another character than a terminator lies in one line
exactly if there is no terminator in it. -/
theorem sameLine_of_closed (closed : isLineTerminator c = false)
    : (ofText (before ++ (gap ++ c :: after))).sameLine (byteLength before)
        (byteLength (before ++ (gap ++ [c])))
      = !(gap ++ [c]).any isLineTerminator := by
  have unpaired : (c :: after).head? ≠ some '\n' := by
    rintro ⟨⟩
    cases closed
  cases broken : gap.any isLineTerminator with
  | false =>
      have unbroken : (gap ++ [c]).any isLineTerminator = false := by simp [broken, closed]
      rw [unbroken, ← List.append_assoc before, ← List.append_assoc before, List.append_cons _ c,
        List.append_assoc before, List.append_assoc before]
      exact sameLine_of_unbroken unbroken
  | true =>
      -- The lines differ in front of the character already, and do so behind it.
      have apart : (ofText (before ++ (gap ++ c :: after))).sameLine (byteLength before)
          (byteLength (before ++ gap)) = false :=
        not_sameLine_of_broken broken unpaired
      have ordered := (ofText (before ++ (gap ++ c :: after))).lineAt_le_lineAt
        (Nat.le_add_right (byteLength before) (byteLength gap))
      have behind := (ofText (before ++ (gap ++ c :: after))).lineAt_le_lineAt
        (Nat.le_add_right (byteLength (before ++ gap)) c.utf8Size)
      rw [List.any_append, broken, Bool.true_or, Bool.not_true]
      simp only [sameLine, beq_eq_false_iff_ne, byteLength_append, byteLength_cons,
        byteLength_nil, Nat.add_zero, ← Nat.add_assoc] at apart ordered behind ⊢
      omega

end LineIndex

end ScriptStyle.Text
