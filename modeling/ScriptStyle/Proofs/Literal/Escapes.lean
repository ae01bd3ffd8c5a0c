import ScriptStyle.Proofs.Literal.Requoting
import ScriptStyle.Proofs.Text.Pattern

/-!
Three accounts of the escapes in a text: reading it from left to right, where a backslash takes
what is behind it, the patterns that are searched for, and the scans for octal escapes and for
line breaks. They agree on every text.
-/

namespace ScriptStyle.Literal

open ScriptStyle.Text

-----------------------------------------------------------------------------------------
-- Reading from left to right
-----------------------------------------------------------------------------------------

/-- What a text is read as: characters for themselves, and escapes by what the backslash takes. -/
inductive Piece where
  | plain (c : Char)
  | escape (escaped : List Char)
deriving DecidableEq, Repr

/-- The pieces of a text. A backslash takes the character behind it, and a carriage return with
the line feed behind that. -/
def pieces : List Char → List Piece
  | [] => []
  | ['\\'] => [.plain '\\']
  | '\\' :: '\r' :: '\n' :: rest => .escape ['\r', '\n'] :: pieces rest
  | '\\' :: c :: rest => .escape [c] :: pieces rest
  | c :: rest => .plain c :: pieces rest

/-- Whether a digit is none but zero. -/
def isNonzeroDigit (c : Char) : Bool :=
  decide ('1' ≤ c) && decide (c ≤ '9')

/-- Whether a piece is an escape of a digit from one to nine, or of a zero that a digit follows. -/
def Piece.IsOctal (following : List Piece) : Piece → Prop
  | plain _ => False
  | escape escaped => ∃ digit, escaped = [digit]
      ∧ (isNonzeroDigit digit
        ∨ digit = '0' ∧ ∃ c others, following = .plain c :: others ∧ c.isDigit)

/-- Some piece of a list is an octal escape. -/
def HasOctalPiece (found : List Piece) : Prop :=
  ∃ before piece after, found = before ++ piece :: after ∧ piece.IsOctal after

-----------------------------------------------------------------------------------------
-- The patterns
-----------------------------------------------------------------------------------------

section Patterns

variable {text before found : List Char}

/-- A character that begins no escape. -/
def unescapedPattern : Pattern :=
  .one (· != '\\')

def backslashPattern : Pattern :=
  .one (· == '\\')

/-- A character, or a backslash and the character that it takes. -/
def partPattern : Pattern :=
  .either unescapedPattern (.both backslashPattern (.one fun _ => true))

/-- What stands behind the backslash of an octal escape. -/
def octalTailPattern : Pattern :=
  .either (.one isNonzeroDigit) (.both (.one (· == '0')) (.one Char.isDigit))

/-- From the start of a text over characters and escapes to an octal escape. -/
def octalPattern : Pattern :=
  .both .start (.both (.many partPattern) (.both backslashPattern octalTailPattern))

/-- A line terminator behind pairs of backslashes, with no other backslash in front of these. -/
def breakPattern : Pattern :=
  .both (.either .start unescapedPattern)
    (.both (.many (.both backslashPattern backslashPattern)) (.one isLineTerminator))

/-- What a search for an octal escape goes over. -/
def IsPart (part : List Char) : Prop :=
  ∃ c, c ≠ '\\' ∧ part = [c] ∨ part = ['\\', c]

/-- What an octal escape has behind its backslash. -/
def IsOctalTail (tail : List Char) : Prop :=
  ∃ digit, isNonzeroDigit digit ∧ tail = [digit] ∨ digit.isDigit ∧ tail = ['0', digit]

@[simp] theorem matches_unescapedPattern
    : unescapedPattern.Matches before found ↔ ∃ c, found = [c] ∧ c ≠ '\\' := by
  simp [unescapedPattern]

@[simp] theorem matches_backslashPattern
    : backslashPattern.Matches before found ↔ found = ['\\'] := by
  simp [backslashPattern]

theorem matches_partPattern
    : partPattern.Matches before found ↔ IsPart found := by
  simp only [partPattern, IsPart, Pattern.matches_either, Pattern.matches_both,
    matches_unescapedPattern, matches_backslashPattern, Pattern.matches_one]
  constructor
  · rintro (⟨c, rfl, unescaped⟩ | ⟨_, _, rfl, rfl, c, rfl, -⟩)
    · exact ⟨c, .inl ⟨unescaped, rfl⟩⟩
    · exact ⟨c, .inr rfl⟩
  · rintro ⟨c, ⟨unescaped, rfl⟩ | rfl⟩
    · exact .inl ⟨c, rfl, unescaped⟩
    · exact .inr ⟨['\\'], [c], rfl, rfl, c, rfl, trivial⟩

theorem matches_octalTailPattern
    : octalTailPattern.Matches before found ↔ IsOctalTail found := by
  simp only [octalTailPattern, IsOctalTail, Pattern.matches_either, Pattern.matches_both,
    Pattern.matches_one, beq_iff_eq]
  constructor
  · rintro (⟨digit, rfl, nonzero⟩ | ⟨_, _, rfl, ⟨_, rfl, rfl⟩, digit, rfl, isDigit⟩)
    · exact ⟨digit, .inl ⟨nonzero, rfl⟩⟩
    · exact ⟨digit, .inr ⟨isDigit, rfl⟩⟩
  · rintro ⟨digit, ⟨nonzero, rfl⟩ | ⟨isDigit, rfl⟩⟩
    · exact .inl ⟨digit, rfl, nonzero⟩
    · exact .inr ⟨['0'], [digit], rfl, ⟨'0', rfl, rfl⟩, digit, rfl, isDigit⟩

/-- A text falls into parts up to an octal escape. -/
def ReachesOctal (text : List Char) : Prop :=
  ∃ (parts : List (List Char)) (tail after : List Char),
    text = parts.flatten ++ '\\' :: (tail ++ after) ∧ (∀ part ∈ parts, IsPart part)
      ∧ IsOctalTail tail

/-- The search for an octal escape succeeds where parts reach up to one. -/
theorem foundIn_octalPattern
    : octalPattern.FoundIn text ↔ ReachesOctal text := by
  simp only [octalPattern, Pattern.foundIn_start, Pattern.matches_both, matches_backslashPattern,
    Pattern.matches_many fun _ _ => matches_partPattern, matches_octalTailPattern]
  constructor
  · rintro ⟨_, after, rfl, _, _, rfl, ⟨parts, rfl, each⟩, _, tail, rfl, rfl, isTail⟩
    exact ⟨parts, tail, after, by simp, each, isTail⟩
  · rintro ⟨parts, tail, after, rfl, each, isTail⟩
    exact ⟨_, after, by simp, _, _, rfl, ⟨parts, rfl, each⟩, _, tail, rfl, rfl, isTail⟩

/-- Pairs of backslashes are an even number of them. -/
theorem matches_pairs
    : (Pattern.many (.both backslashPattern backslashPattern)).Matches before found
      ↔ ∃ count, found = List.replicate (2 * count) '\\' := by
  have pair (before found : List Char)
      : (Pattern.both backslashPattern backslashPattern).Matches before found
        ↔ found = ['\\', '\\'] := by
    simp [Pattern.matches_both]
  have flat (count : Nat)
      : (List.replicate count ['\\', '\\']).flatten = List.replicate (2 * count) '\\' := by
    induction count with
    | zero => rfl
    | succ count ih => rw [List.replicate_succ, List.flatten_cons, ih]; rfl
  rw [Pattern.matches_many pair]
  constructor
  · rintro ⟨parts, rfl, each⟩
    exact ⟨parts.length, by rw [← flat, ← List.eq_replicate_of_mem each]⟩
  · rintro ⟨count, rfl⟩
    exact ⟨_, (flat count).symm, fun _ => List.eq_of_mem_replicate⟩

/-- The search for a line break succeeds where an even number of backslashes is between a line
terminator and the start of the text or a character that is none. -/
theorem foundIn_breakPattern
    : breakPattern.FoundIn text
      ↔ ∃ (front : List Char) (count : Nat) (c : Char) (after : List Char),
          text = front ++ (List.replicate (2 * count) '\\' ++ c :: after)
            ∧ front.getLast? ≠ some '\\' ∧ isLineTerminator c := by
  simp only [breakPattern, Pattern.FoundIn, Pattern.matches_both, Pattern.matches_either,
    Pattern.matches_start, matches_unescapedPattern, matches_pairs, Pattern.matches_one]
  constructor
  · rintro ⟨before, _, after, rfl, lead, _, rfl, leads, _, _, rfl, ⟨count, rfl⟩, c, rfl, ends⟩
    refine ⟨before ++ lead, count, c, after, by simp, ?_, ends⟩
    rcases leads with ⟨rfl, rfl⟩ | ⟨first, rfl, unescaped⟩
    · simp
    · simpa using unescaped
  · rintro ⟨front, count, c, after, rfl, lead, ends⟩
    rcases List.eq_nil_or_concat front with rfl | ⟨before, first, rfl⟩
    · exact ⟨[], _, after, by simp, [], _, rfl, .inl ⟨rfl, rfl⟩, _, [c], rfl, ⟨count, rfl⟩, c, rfl,
        ends⟩
    · exact ⟨before, _, after, by simp, [first], _, rfl, .inr ⟨first, rfl, by simpa using lead⟩,
        _, [c], rfl, ⟨count, rfl⟩, c, rfl, ends⟩

end Patterns

-----------------------------------------------------------------------------------------
-- Octal escapes
-----------------------------------------------------------------------------------------

section Octal

variable {c digit : Char} {text rest part tail : List Char}

/-- A digit that is not zero is one from one to nine. -/
theorem isDigit_eq (notZero : c ≠ '0')
    : c.isDigit = isNonzeroDigit c := by
  have notCode : c.val.toNat ≠ 48 := fun same => notZero (Char.toNat_inj.mp same)
  rw [Bool.eq_iff_iff]
  simp only [Char.isDigit, isNonzeroDigit, Bool.and_eq_true, decide_eq_true_eq, ge_iff_le,
    Char.le_def, UInt32.le_iff_toNat_le]
  change 48 ≤ _ ∧ _ ↔ 49 ≤ _ ∧ _
  omega

/-- The scan for octal escapes goes over an unescaped character. -/
theorem hasOctalEscape_cons (unescaped : c ≠ '\\')
    : hasOctalEscape (c :: rest) = hasOctalEscape rest := by
  rw [hasOctalEscape]
  · exact fun _ backslash => absurd backslash unescaped
  · exact fun _ _ backslash => absurd backslash unescaped

/-- What the scan for octal escapes makes of a backslash and the character that it takes. -/
theorem hasOctalEscape_escape
    : hasOctalEscape ('\\' :: c :: rest)
      = (isNonzeroDigit c || c == '0' && rest.head?.any Char.isDigit || hasOctalEscape rest) := by
  by_cases isZero : c = '0'
  · subst isZero
    rfl
  · rw [hasOctalEscape, isDigit_eq isZero, beq_false_of_ne isZero, Bool.false_and, Bool.or_false]
    exact isZero

/-- An octal escape is found behind whatever the search goes over. -/
theorem hasOctalEscape_of_part (isPart : IsPart part) (found : hasOctalEscape rest)
    : hasOctalEscape (part ++ rest) := by
  obtain ⟨c, ⟨unescaped, rfl⟩ | rfl⟩ := isPart
  · rw [List.singleton_append, hasOctalEscape_cons unescaped, found]
  · rw [List.cons_append, List.singleton_append, hasOctalEscape_escape, found, Bool.or_true]

theorem ReachesOctal.behind (found : ReachesOctal rest) (isPart : IsPart part)
    : ReachesOctal (part ++ rest) := by
  obtain ⟨parts, tail, after, rfl, each, isTail⟩ := found
  exact ⟨part :: parts, tail, after, by simp, List.forall_mem_cons.mpr ⟨isPart, each⟩, isTail⟩

@[simp] theorem not_hasOctalPiece_nil
    : ¬HasOctalPiece [] := by
  rintro ⟨before, piece, after, split, -⟩
  simp at split

/-- An octal escape is the first piece or among the others. -/
theorem hasOctalPiece_cons {piece : Piece} {others : List Piece}
    : HasOctalPiece (piece :: others) ↔ piece.IsOctal others ∨ HasOctalPiece others := by
  constructor
  · rintro ⟨before, found, after, split, isOctal⟩
    cases before with
    | nil =>
        obtain ⟨rfl, rfl⟩ := List.cons.inj split
        exact .inl isOctal
    | cons first before => exact .inr ⟨before, found, after, (List.cons.inj split).2, isOctal⟩
  · rintro (isOctal | ⟨before, found, after, rfl, isOctal⟩)
    · exact ⟨[], piece, others, rfl, isOctal⟩
    · exact ⟨piece :: before, found, after, rfl, isOctal⟩

/-- A text begins with a digit exactly if its first piece is one. -/
theorem any_isDigit_iff
    : rest.head?.any Char.isDigit
      ↔ ∃ c others, pieces rest = .plain c :: others ∧ c.isDigit := by
  fun_cases pieces rest with
  | case1 | case2 | case3 | case4 => simp
  | case5 => simp

/-- The pattern for octal escapes is found exactly where the scan finds one. -/
theorem foundIn_octalPattern_iff
    : octalPattern.FoundIn text ↔ hasOctalEscape text := by
  rw [foundIn_octalPattern]
  constructor
  · rintro ⟨parts, tail, after, rfl, each, digit, isTail⟩
    induction parts with
    | nil =>
        rcases isTail with ⟨nonzero, rfl⟩ | ⟨isDigit, rfl⟩
        · simp [hasOctalEscape_escape, nonzero]
        · simp [hasOctalEscape_escape, isDigit]
    | cons part others ih =>
        obtain ⟨isPart, each⟩ := List.forall_mem_cons.mp each
        rw [List.flatten_cons, List.append_assoc]
        exact hasOctalEscape_of_part isPart (ih each)
  · intro found
    fun_induction hasOctalEscape text with
    | case1 => cases found
    | case2 rest ih =>
        rcases Bool.or_eq_true_iff.mp found with isDigit | later
        · obtain ⟨digit, begins, isDigit⟩ := Option.any_eq_true .. |>.mp isDigit
          obtain ⟨after, rfl⟩ := List.head?_eq_some_iff.mp begins
          exact ⟨[], ['0', digit], after, rfl, by simp, digit, .inr ⟨isDigit, rfl⟩⟩
        · exact (ih later).behind ⟨'0', .inr rfl⟩
    | case3 c rest notZero ih =>
        rcases Bool.or_eq_true_iff.mp found with isDigit | later
        · rw [isDigit_eq fun zero => notZero zero] at isDigit
          exact ⟨[], [c], rest, rfl, by simp, c, .inl ⟨isDigit, rfl⟩⟩
        · exact (ih later).behind ⟨c, .inr rfl⟩
    | case4 c rest _ notEscape ih =>
        by_cases backslash : c = '\\'
        · cases rest with
          | nil => cases found
          | cons first others => exact absurd rfl (notEscape first others backslash)
        · exact (ih found).behind ⟨c, .inl ⟨backslash, rfl⟩⟩

/-- The scan finds an octal escape exactly where a piece of the text is one. -/
theorem hasOctalEscape_iff
    : hasOctalEscape text ↔ HasOctalPiece (pieces text) := by
  fun_induction pieces text with
  | case1 => simp [hasOctalEscape]
  | case2 => simp [hasOctalEscape, hasOctalPiece_cons, Piece.IsOctal]
  | case3 rest ih =>
      rw [hasOctalEscape_escape, hasOctalEscape_cons (by decide), Bool.or_eq_true_iff, ih,
        hasOctalPiece_cons]
      simp [Piece.IsOctal, isNonzeroDigit]
  | case4 c rest _ ih =>
      rw [hasOctalEscape_escape, Bool.or_eq_true_iff, ih, hasOctalPiece_cons]
      simp [Piece.IsOctal, any_isDigit_iff]
  | case5 c rest notLast _ notEscape ih =>
      rw [hasOctalEscape_cons (unescaped_of_cases notLast notEscape), ih, hasOctalPiece_cons]
      simp [Piece.IsOctal]

end Octal

-----------------------------------------------------------------------------------------
-- Line breaks
-----------------------------------------------------------------------------------------

section Breaks

variable {c : Char} {text rest : List Char} {odd : Bool}

theorem hasLineBreak_backslash
    : hasLineBreak odd ('\\' :: rest) = hasLineBreak (!odd) rest :=
  rfl

/-- Backslashes in front of a text only count as odd or even. -/
theorem hasLineBreak_backslashes (count : Nat)
    : hasLineBreak odd (List.replicate count '\\' ++ rest)
      = hasLineBreak (odd ^^ decide (count % 2 = 1)) rest := by
  induction count generalizing odd with
  | zero => simp
  | succ count ih =>
      rw [List.replicate_succ, List.cons_append, hasLineBreak_backslash, ih]
      congr 1
      grind

/-- A character that is no backslash ends a run of them. -/
theorem hasLineBreak_cons (unescaped : c ≠ '\\')
    : hasLineBreak odd (c :: rest)
      = (isLineTerminator c && !odd || hasLineBreak false rest) := by
  rw [hasLineBreak, if_neg (by simpa using unescaped)]

/-- An escaped character breaks no line. -/
theorem hasLineBreak_escape
    : hasLineBreak false ('\\' :: c :: rest) = hasLineBreak false rest := by
  by_cases backslash : c = '\\'
  · rw [backslash, hasLineBreak_backslash, hasLineBreak_backslash, Bool.not_false, Bool.not_true]
  · rw [hasLineBreak_backslash, hasLineBreak_cons backslash, Bool.not_false, Bool.not_true,
      Bool.and_false, Bool.false_or]

/-- A line break is found behind whatever does not end in a backslash. -/
theorem hasLineBreak_append (front : List Char) (lead : front.getLast? ≠ some '\\')
    (found : hasLineBreak false rest) (even : front = [] → odd = false)
    : hasLineBreak odd (front ++ rest) := by
  induction front generalizing odd with
  | nil => rwa [even rfl]
  | cons first others ih =>
      cases others with
      | nil =>
          rw [List.singleton_append, hasLineBreak_cons (by simpa using lead), found, Bool.or_true]
      | cons second others =>
          rw [List.getLast?_cons_cons] at lead
          rw [List.cons_append, hasLineBreak]
          split
          · exact ih lead (by simp)
          · rw [ih lead (by simp), Bool.or_true]

/-- A line break that is found stands behind backslashes, as many as make it unescaped. -/
theorem exists_of_hasLineBreak (found : hasLineBreak odd text)
    : ∃ front count c after, text = front ++ (List.replicate count '\\' ++ c :: after)
        ∧ front.getLast? ≠ some '\\' ∧ isLineTerminator c
        ∧ (count % 2 = 1 ↔ front = [] ∧ odd = true) := by
  induction text generalizing odd with
  | nil => cases found
  | cons first rest ih =>
      by_cases backslash : first = '\\'
      · subst backslash
        rw [hasLineBreak_backslash] at found
        obtain ⟨front, count, c, after, rfl, lead, ends, even⟩ := ih found
        cases front with
        | nil =>
            refine ⟨[], count + 1, c, after, rfl, lead, ends, ?_⟩
            cases odd <;> simp at even ⊢ <;> omega
        | cons second others =>
            exact ⟨'\\' :: second :: others, count, c, after, rfl, by simpa using lead, ends,
              by simpa using even⟩
      · rw [hasLineBreak_cons backslash] at found
        rcases Bool.or_eq_true_iff.mp found with here | later
        · simp only [Bool.and_eq_true, Bool.not_eq_true'] at here
          exact ⟨[], 0, first, rest, rfl, by simp, here.1, by simp [here.2]⟩
        · obtain ⟨front, count, c, after, rfl, lead, ends, even⟩ := ih later
          refine ⟨first :: front, count, c, after, rfl, ?_, ends, by simpa using even⟩
          cases front with
          | nil => simpa using backslash
          | cons second others => simpa using lead

/-- The pattern for line breaks is found exactly where the scan finds one. -/
theorem foundIn_breakPattern_iff
    : breakPattern.FoundIn text ↔ hasLineBreak false text := by
  rw [foundIn_breakPattern]
  constructor
  · rintro ⟨front, count, c, after, rfl, lead, ends⟩
    have visible : c ≠ '\\' := by
      rintro rfl
      cases ends
    refine hasLineBreak_append front lead ?_ fun _ => rfl
    rw [hasLineBreak_backslashes, hasLineBreak_cons visible, ends]
    simp
  · intro found
    obtain ⟨front, count, c, after, rfl, lead, ends, even⟩ := exists_of_hasLineBreak found
    refine ⟨front, count / 2, c, after, ?_, lead, ends⟩
    rw [Nat.mul_div_cancel' (by simp at even; omega)]

/-- A character that begins no CR LF pair is kept where such pairs are joined. -/
theorem joinLineBreaks_cons (unpaired : c = '\r' → rest.head? ≠ some '\n')
    : joinLineBreaks (c :: rest) = c :: joinLineBreaks rest := by
  rw [joinLineBreaks]
  rintro others rfl rfl
  exact unpaired rfl rfl

/-- A text spans lines exactly if one of its pieces is a line terminator as it stands. -/
theorem spansLines_iff
    : spansLines text ↔ ∃ c, .plain c ∈ pieces text ∧ isLineTerminator c := by
  rw [spansLines]
  fun_induction pieces text with
  | case1 => simp [joinLineBreaks, hasLineBreak]
  | case2 => simp [joinLineBreaks, hasLineBreak, isLineTerminator]
  | case3 rest ih =>
      rw [joinLineBreaks_cons (by simp), joinLineBreaks, hasLineBreak_escape, ih]
      simp
  | case4 c rest unpaired ih =>
      have alone : c = '\r' → rest.head? ≠ some '\n' := by
        intro isReturn feed
        obtain ⟨others, rfl⟩ := List.head?_eq_some_iff.mp feed
        exact unpaired others isReturn rfl
      rw [joinLineBreaks_cons (by simp), joinLineBreaks_cons alone, hasLineBreak_escape, ih]
      simp
  | case5 c rest notLast _ notEscape ih =>
      have unescaped := unescaped_of_cases notLast notEscape
      by_cases pair : c = '\r' ∧ rest.head? = some '\n'
      · obtain ⟨rfl, feed⟩ := pair
        obtain ⟨others, rfl⟩ := List.head?_eq_some_iff.mp feed
        simp [joinLineBreaks, hasLineBreak, isLineTerminator]
      · rw [joinLineBreaks_cons fun isReturn feed => pair ⟨isReturn, feed⟩,
          hasLineBreak_cons unescaped, Bool.not_false, Bool.and_true, Bool.or_eq_true_iff, ih]
        simp

end Breaks

end ScriptStyle.Literal
