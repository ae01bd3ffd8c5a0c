import ScriptStyle.Proofs.Scanner.Trail

/-!
How tokens are spelled: an identifier begins with a character of its own, and the pieces of a
template hold the delimiters at their ends.
-/

namespace ScriptStyle

open ScriptStyle.Text

namespace Lexeme

/-- A piece of a template has room for what stops it. -/
theorem templateReach_length (text : List Char)
    : (templateReach text).length ≤ text.length
      ∧ ((templateReach text).stop = .backtick → 1 ≤ (templateReach text).length)
      ∧ ((templateReach text).stop = .substitution → 2 ≤ (templateReach text).length) := by
  fun_induction templateReach text with
  | case1 | case2 | case3 => simp
  | case4 c rest ih =>
      simp only [TemplateReach.after, List.length_cons]
      omega
  | case5 c rest _ _ _ ih =>
      simp only [TemplateReach.after, List.length_cons]
      refine ⟨by omega, fun stop => by omega, fun stop => ?_⟩
      have inner := ih.2.2 stop
      omega

end Lexeme

namespace Scanner

variable {scanner after : Scanner} {reading : SlashReading} {token : Token}

theorem first_of_readWord {c : Char} {front : Reading} (read : scanner.readWord c = front)
    (outcome : front.outcome = .ok .identifier)
    : isIdentifierStart c || c == '\\' := by
  subst read
  simp only [readWord] at outcome
  split at outcome
  · assumption
  · split at outcome <;> cases outcome

/-- An identifier begins with a character that no punctuator begins with. -/
theorem first_of_identifier (read : scanner.next reading = (.ok (some token), after))
    (kind : token.kind = .identifier)
    : ∃ c tail, token.text.toList = c :: tail ∧ (isIdentifierStart c || c == '\\') := by
  obtain ⟨front, found, reads, outcome, rfl, rfl⟩ := next_eq_token.mp read
  obtain rfl : found = .identifier := kind
  have positive := read?_length_pos reads outcome
  generalize scanner.skipBlank = here at reads
  have begins {c : Char} {rest : List Char} (text : here.rest = c :: rest)
      (word : here.readWord c = front)
      : ∃ c tail, (here.tokenAt .identifier front.length).text.toList = c :: tail
        ∧ (isIdentifierStart c || c == '\\') := by
    obtain ⟨more, length⟩ : ∃ more, front.length = more + 1 := Nat.exists_eq_add_one.mpr positive
    refine ⟨c, rest.take more, ?_, first_of_readWord word outcome⟩
    simp [tokenAt, text, length]
  revert reads
  fun_cases read? here reading <;> intro reads
  case case1 => cases reads
  case case7 text _ _ => exact begins text (Option.some.inj reads)
  case case10 text _ => exact begins text (Option.some.inj reads)
  case case12 text _ => exact begins text (Option.some.inj reads)
  case case15 text _ _ => exact begins text (Option.some.inj reads)
  all_goals obtain rfl := Option.some.inj reads
  case case3 => cases kind_of_readComment outcome
  case case4 => rcases kind_of_readSlash outcome with equal | equal <;> cases equal
  case case8 | case9 => rcases kind_of_readTemplate outcome with ⟨equal, -⟩ | ⟨equal, -⟩ <;> cases equal
  case case13 => cases (kind_of_readString outcome).1
  all_goals cases outcome

/-- A token that is spelled like a punctuator is none but that. -/
theorem isPunctuator_of_isTerminal {text : String} {c : Char} {rest : List Char}
    (read : scanner.next reading = (.ok (some token), after)) (terminal : token.isTerminal text)
    (spelled : text.toList = c :: rest) (sign : (isIdentifierStart c || c == '\\') = false)
    : token.isPunctuator text := by
  simp only [Token.isTerminal, Token.isPunctuator, Bool.and_eq_true, Bool.or_eq_true,
    beq_iff_eq] at terminal ⊢
  refine ⟨terminal.1.resolve_right fun word => ?_, terminal.2⟩
  obtain ⟨first, tail, begins, start⟩ := first_of_identifier read word
  rw [terminal.2, spelled] at begins
  rw [← (List.cons.inj begins).1, sign] at start
  cases start

/-- The room that the delimiters of a piece of a template take. -/
def delimiterRoom : TokenKind → Nat
  | .template | .templateTail => 2
  | .templateHead | .templateMiddle => 3
  | _ => 0

/-- A piece of a template holds its delimiters. -/
theorem delimiterRoom_of_next (read : scanner.next reading = (.ok (some token), after))
    : token.span.start + delimiterRoom token.kind ≤ token.span.stop := by
  obtain ⟨front, kind, reads, outcome, rfl, rfl⟩ := next_eq_token.mp read
  generalize scanner.skipBlank = here at reads
  have plain (other : delimiterRoom kind = 0)
      : (here.tokenAt kind front.length).span.start + delimiterRoom kind
        ≤ (here.tokenAt kind front.length).span.stop := by
    simp [tokenAt, other]
  have piece {c : Char} {rest : List Char} {braces : List Brace} {whole part : TokenKind}
      (text : here.rest = c :: rest) (made : here.readTemplate rest braces whole part = front)
      (closes : delimiterRoom whole = 2) (opens : delimiterRoom part = 3)
      : (here.tokenAt kind front.length).span.start + delimiterRoom kind
        ≤ (here.tokenAt kind front.length).span.stop := by
    subst made
    obtain ⟨inside, one, two⟩ := Lexeme.templateReach_length rest
    have bytes := length_le_byteLength (here.rest.take (1 + (Lexeme.templateReach rest).length))
    rw [List.length_take, text, List.length_cons] at bytes
    have stopped := kind_of_readTemplate outcome
    simp only [readTemplate, tokenAt, text] at bytes ⊢
    rcases stopped with ⟨rfl, stop⟩ | ⟨rfl, stop⟩
    · have := one stop
      omega
    · have := two stop
      omega
  change (here.tokenAt kind front.length).span.start + delimiterRoom kind
    ≤ (here.tokenAt kind front.length).span.stop
  revert reads
  fun_cases read? here reading <;> intro reads
  case case1 => cases reads
  case case8 text => exact piece text (Option.some.inj reads) rfl rfl
  case case9 text _ _ => exact piece text (Option.some.inj reads) rfl rfl
  all_goals obtain rfl := Option.some.inj reads
  case case3 => exact plain (by rw [kind_of_readComment outcome]; rfl)
  case case4 => exact plain (by rcases kind_of_readSlash outcome with rfl | rfl <;> rfl)
  case case7 | case10 | case12 | case15 =>
    exact plain (by rcases kind_of_readWord outcome with rfl | rfl <;> rfl)
  case case13 => exact plain (by rw [(kind_of_readString outcome).1]; rfl)
  all_goals exact plain (by obtain rfl := Except.ok.inj outcome; rfl)

end Scanner

end ScriptStyle
