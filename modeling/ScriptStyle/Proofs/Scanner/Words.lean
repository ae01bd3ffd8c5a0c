import ScriptStyle.Grammar.Operator
import ScriptStyle.Proofs.Scanner.Reading

/-!
Words behind spaces. A name or an operator that a space follows is read as one token, and what
the scanner is left with depends on nothing but where the word ends and what it is.
-/

namespace ScriptStyle

open ScriptStyle.Text

-----------------------------------------------------------------------------------------
-- Names
-----------------------------------------------------------------------------------------

/-- The characters of a name after the first: those that names are made of, and escapes. The
digits of an escape without braces are characters of names. -/
inductive NameTail : List Char → Prop
  | nil : NameTail []
  | char {c : Char} {rest : List Char} (continues : isIdentifierContinue c) (tail : NameTail rest)
    : NameTail (c :: rest)
  | escape {rest : List Char} (tail : NameTail rest) : NameTail ('\\' :: rest)
  | braced {rest : List Char} (digits : List Char) (unclosed : '}' ∉ digits) (tail : NameTail rest)
    : NameTail ('\\' :: 'u' :: '{' :: (digits ++ '}' :: rest))

/-- Characters that names are made of go on with a name. -/
theorem NameTail.of_all {word : List Char} (goesOn : word.all isIdentifierContinue)
    : NameTail word := by
  induction word with
  | nil => exact .nil
  | cons c rest ih =>
      rw [List.all_cons, Bool.and_eq_true] at goesOn
      exact .char goesOn.1 (ih goesOn.2)

/-- An identifier name. -/
structure IsName (word : String) : Prop where
  begins : ∃ c rest, word.toList = c :: rest ∧ (isIdentifierStart c || c == '\\')
  tail : NameTail word.toList

/-- What follows a word on its line: a space, or the end of the source. -/
def EndsWord (rest : List Char) : Prop :=
  ∀ c, rest.head? = some c → c = ' '

/-- No brace stands where a name goes on or ends. -/
theorem NameTail.head?_ne {word rest : List Char} (tail : NameTail word) (ends : EndsWord rest)
    : (word ++ rest).head? ≠ some '{' := by
  intro brace
  cases tail with
  | nil => cases ends '{' brace
  | char continues =>
      obtain rfl := Option.some.inj brace
      revert continues
      decide
  | escape | braced => cases Option.some.inj brace

/-- No braced escape begins behind the backslash of another escape. -/
theorem NameTail.not_braced {word rest more : List Char} (tail : NameTail word)
    (ends : EndsWord rest)
    : word ++ rest ≠ 'u' :: '{' :: more := by
  intro braced
  cases tail with
  | nil => cases ends 'u' (by rw [← List.nil_append rest, braced]; rfl)
  | char _ tail => exact tail.head?_ne ends (congrArg List.head? (List.cons.inj braced).2)
  | escape | braced => cases (List.cons.inj braced).1

namespace Lexeme

theorem nameLength_of_open {digits : List Char} (unclosed : '}' ∉ digits) (rest : List Char)
    : nameLength true (digits ++ '}' :: rest) = digits.length + 1 + nameLength false rest := by
  induction digits with
  | nil => simp [nameLength, Nat.add_comm]
  | cons c digits ih =>
      rw [List.mem_cons, not_or] at unclosed
      have other : (c != '}') = true := bne_iff_ne.mpr (Ne.symm unclosed.1)
      rw [List.cons_append, nameLength, other, ih unclosed.2, List.length_cons]
      omega

/-- A name reaches to the end of its word. -/
theorem nameLength_of_tail {word rest : List Char} (tail : NameTail word) (ends : EndsWord rest)
    : nameLength false (word ++ rest) = word.length := by
  induction tail with
  | nil =>
      cases rest with
      | nil => rfl
      | cons c rest =>
          obtain rfl := ends c rfl
          rfl
  | @char c word continues _ ih =>
      rw [List.cons_append, nameLength, if_pos (by simp [continues]), ih, List.length_cons]
      rintro tail rfl -
      revert continues
      decide
  | @escape word tail ih =>
      rw [List.cons_append, nameLength, if_pos (by simp), ih, List.length_cons]
      exact fun more _ braced => tail.not_braced ends braced
  | @braced word digits unclosed _ ih =>
      have split : '\\' :: 'u' :: '{' :: (digits ++ '}' :: word) ++ rest
          = '\\' :: 'u' :: '{' :: (digits ++ '}' :: (word ++ rest)) := by simp
      rw [split, nameLength, nameLength_of_open unclosed, ih]
      simp only [List.length_cons, List.length_append]
      omega

end Lexeme

namespace Text

/-- The codes of the digits and of the blank characters. -/
def digitAndBlankCodes : List Nat :=
  List.range' 0x30 10 ++ List.range' 0x9 5 ++ List.range' 0x2000 11
    ++ [0x20, 0x85, 0xa0, 0x1680, 0x2028, 0x2029, 0x202f, 0x205f, 0x3000, 0xfeff]

/-- No name begins with a digit or a blank. -/
theorem not_digit_or_blank {c : Char} (starts : isIdentifierStart c || c == '\\')
    : c.isDigit = false ∧ isBlank c = false := by
  have apart : ∀ code ∈ digitAndBlankCodes,
      (isIdentifierStart (Char.ofNat code) || Char.ofNat code == '\\') = false := by
    decide +kernel
  have other : c.toNat ∉ digitAndBlankCodes := by
    intro among
    have none := apart c.toNat among
    rw [Char.ofNat_toNat, starts] at none
    cases none
  have mark : c = '\ufeff' ↔ c.toNat = 0xfeff := by
    rw [← Char.toNat_inj]
    rfl
  simp only [digitAndBlankCodes, List.mem_append, List.mem_range'_1, List.mem_cons,
    List.not_mem_nil, or_false, not_or, not_and] at other
  constructor
  · simp only [Char.isDigit, Bool.and_eq_false_iff, decide_eq_false_iff_not, ge_iff_le,
      UInt32.le_iff_toNat_le]
    change ¬0x30 ≤ c.toNat ∨ ¬c.toNat ≤ 0x39
    omega
  · simp only [isBlank, isWhiteSpace, Bool.or_eq_false_iff, Bool.and_eq_false_iff,
      decide_eq_false_iff_not, beq_eq_false_iff_ne, ne_eq, mark]
    omega

end Text

namespace Scanner

variable {scanner : Scanner} {reading : SlashReading} {word symbol : String} {rest : List Char}

-----------------------------------------------------------------------------------------
-- What is read at a word
-----------------------------------------------------------------------------------------

/-- A name is read up to the end of its word. -/
theorem read?_name (name : IsName word) (ends : EndsWord rest)
    (text : scanner.rest = word.toList ++ rest)
    : scanner.read? reading = some (scanner.readPlain .identifier word.toList.length) := by
  obtain ⟨first, tail, spelled, starts⟩ := name.begins
  have here : scanner.readWord first = scanner.readPlain .identifier word.toList.length := by
    rw [readWord, if_pos starts, text, Lexeme.nameLength_of_tail name.tail ends]
  have begins {c : Char} {others : List Char} (text' : scanner.rest = c :: others) : c = first := by
    rw [text, spelled] at text'
    exact (List.cons.inj text').1.symm
  have sign {c : Char} {others : List Char} (text' : scanner.rest = c :: others)
      (sign : (isIdentifierStart c || c == '\\') = false) : False := by
    rw [begins text', starts] at sign
    cases sign
  fun_cases read? scanner reading
  case case1 ended =>
    rw [text, spelled] at ended
    cases ended
  case case13 text' quote =>
    rcases Bool.or_eq_true_iff.mp quote with single | double
    · obtain rfl := eq_of_beq single
      exact (sign text' (by decide)).elim
    · obtain rfl := eq_of_beq double
      exact (sign text' (by decide)).elim
  case case14 text' _ digit =>
    rw [begins text', (not_digit_or_blank starts).1] at digit
    cases digit
  case case15 text' _ _ => rw [begins text', here]
  all_goals exact (sign ‹_› (by decide)).elim

/-- An operator is read up to the space behind it, unless a slash may begin something else. -/
theorem read?_symbol (operator : (Grammar.operatorLevel? symbol).isSome)
    (sign : ¬Grammar.isWordOperator symbol) (divides : scanner.slashIsRegex reading = false)
    (text : scanner.rest = symbol.toList ++ ' ' :: rest)
    : scanner.read? reading = some (scanner.readPlain .punctuator symbol.toList.length) := by
  obtain ⟨_, offset, braces, newline, previous, guess⟩ := scanner
  subst text
  unfold Grammar.operatorLevel? at operator
  split at operator
  case h_15 | h_16 => exact (sign rfl).elim
  case h_23 =>
    simp only [read?, readSlash, divides]
    rfl
  case h_26 => cases operator
  all_goals rfl

-----------------------------------------------------------------------------------------
-- Words in a line
-----------------------------------------------------------------------------------------

/-- A scanner in the middle of a line, outside of all braces. -/
def inLine (offset : Nat) (previous : Option (TokenKind × String)) (rest : List Char) : Scanner :=
  { rest, offset, braces := [], newlineBefore := false, previous, guess := SlashGuess.standard }

variable {offset spaces : Nat} {previous : Option (TokenKind × String)} {kind : TokenKind}

/-- Spaces in front of a word are skipped. -/
theorem skipBlank_inLine (visible : ∀ c, rest.head? = some c → isBlank c = false)
    : (inLine offset previous (List.replicate spaces ' ' ++ rest)).skipBlank
      = inLine (offset + spaces) previous rest := by
  have bytes : byteLength (List.replicate spaces ' ') = spaces := by
    induction spaces with
    | zero => rfl
    | succ spaces ih => rw [List.replicate_succ, byteLength_cons, ih]; exact Nat.add_comm 1 spaces
  have counted : lengthWhile isBlank (List.replicate spaces ' ' ++ rest) = spaces := by
    clear bytes
    induction spaces with
    | zero =>
        cases rest with
        | nil => rfl
        | cons c rest => simp [lengthWhile, visible c rfl]
    | succ spaces ih =>
        rw [List.replicate_succ, List.cons_append, lengthWhile, if_pos (by decide), ih]
  have unbroken : isLineTerminator ' ' = false := rfl
  simp [skipBlank, advance, inLine, counted, bytes, unbroken]

/-- A word behind spaces becomes a token, and the scanner stays in the line. -/
theorem next_inLine (spaces : Nat) {first : Char} {tail : List Char}
    (spelled : word.toList = first :: tail) (visible : isBlank first = false) (significant : kind.isComment = false)
    (closed : bracesAfter [] kind word = [])
    (read : (inLine (offset + spaces) previous (word.toList ++ rest)).read? .guessed
      = some ((inLine (offset + spaces) previous (word.toList ++ rest)).readPlain kind
          word.toList.length))
    : (inLine offset previous (List.replicate spaces ' ' ++ (word.toList ++ rest))).next .guessed
      = (.ok (some ⟨kind, ⟨offset + spaces, offset + spaces + word.utf8ByteSize⟩, word, false⟩),
          inLine (offset + spaces + word.utf8ByteSize) (some (kind, word)) rest) := by
  have front (c : Char) (here : (word.toList ++ rest).head? = some c) : isBlank c = false := by
    rw [spelled] at here
    rwa [← Option.some.inj here]
  rw [next_eq_token, skipBlank_inLine front]
  refine ⟨_, kind, read, rfl, ?_, ?_⟩
  · simp [tokenAt, readPlain, inLine, byteLength_toList]
  · simp [behind, after, readPlain, advance, inLine, significant, closed, byteLength_toList]

/-- A name behind spaces becomes an identifier. -/
theorem next_name (spaces : Nat) (name : IsName word) (ends : EndsWord rest)
    : (inLine offset previous (List.replicate spaces ' ' ++ (word.toList ++ rest))).next .guessed
      = (.ok (some
            ⟨.identifier, ⟨offset + spaces, offset + spaces + word.utf8ByteSize⟩, word, false⟩),
          inLine (offset + spaces + word.utf8ByteSize) (some (.identifier, word)) rest) := by
  obtain ⟨first, tail, spelled, starts⟩ := name.begins
  exact next_inLine spaces spelled (not_digit_or_blank starts).2 rfl rfl (read?_name name ends rfl)

/-- An operator begins with no blank and is no brace. -/
theorem shape_of_operator (operator : (Grammar.operatorLevel? symbol).isSome)
    : (∃ first tail, symbol.toList = first :: tail ∧ isBlank first = false)
      ∧ bracesAfter [] .punctuator symbol = [] := by
  unfold Grammar.operatorLevel? at operator
  split at operator
  case h_26 => cases operator
  all_goals exact ⟨⟨_, _, rfl, by decide⟩, rfl⟩

/-- An operator behind a name and spaces becomes a punctuator. -/
theorem next_symbol (spaces : Nat) (operator : (Grammar.operatorLevel? symbol).isSome)
    (sign : ¬Grammar.isWordOperator symbol) (operand : word ∉ SlashGuess.operandWords)
    : (inLine offset (some (.identifier, word))
        (List.replicate spaces ' ' ++ (symbol.toList ++ ' ' :: rest))).next .guessed
      = (.ok (some
            ⟨.punctuator, ⟨offset + spaces, offset + spaces + symbol.utf8ByteSize⟩, symbol, false⟩),
          inLine (offset + spaces + symbol.utf8ByteSize) (some (.punctuator, symbol))
            (' ' :: rest)) := by
  obtain ⟨⟨first, tail, spelled, visible⟩, closed⟩ := shape_of_operator operator
  refine next_inLine spaces spelled visible rfl closed (read?_symbol operator sign ?_ rfl)
  simpa [slashIsRegex, inLine, SlashGuess.standard] using operand

end Scanner

end ScriptStyle
