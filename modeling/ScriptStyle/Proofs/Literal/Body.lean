import ScriptStyle.Literal.Requote
import ScriptStyle.Scanner.Lexeme

/-!
The texts that can stand between two quotes. A scanner that has read the first quote reaches
the second one across exactly these texts.
-/

namespace ScriptStyle.Literal

open ScriptStyle.Lexeme

variable {style : QuoteStyle}

/-- Whether an unescaped character ends a literal or breaks it; the next character tells whether
a dollar sign begins a substitution. -/
def endsBody (style : QuoteStyle) (c : Char) (next : Option Char) : Bool :=
  c == style.quote
    || (if style == .backtick then c == '$' && next == some '\x7b' else c == '\n' || c == '\r')

/-- Whether a text goes on up to the closing quote of a literal. A backslash takes the next
character with it, and both halves of a CR LF pair. -/
def isBody (style : QuoteStyle) : List Char → Bool
  | [] => true
  | ['\\'] => false
  | '\\' :: '\r' :: '\n' :: rest => isBody style rest
  | '\\' :: _ :: rest => isBody style rest
  | c :: rest => !endsBody style c rest.head? && isBody style rest

/-- A character in front of a text is unescaped where no case of a backslash fits. -/
theorem unescaped_of_cases {c : Char} {rest : List Char} (notLast : c = '\\' → rest = [] → False)
    (notEscape : ∀ first others, c = '\\' → rest = first :: others → False)
    : c ≠ '\\' := by
  intro backslash
  cases rest with
  | nil => exact notLast backslash rfl
  | cons first others => exact notEscape first others backslash rfl

/-- The closing quote after a character does not change whether that character ends a literal. -/
theorem endsBody_quote (c : Char)
    : endsBody style c (some style.quote) = endsBody style c none := by
  cases style <;> simp [endsBody, QuoteStyle.quote]

/-- An unescaped character goes on with a literal if it does not end it. -/
theorem isBody_cons {c : Char} {rest : List Char} (unescaped : c ≠ '\\')
    : isBody style (c :: rest) = (!endsBody style c rest.head? && isBody style rest) := by
  rw [isBody]
  · exact fun backslash => absurd backslash unescaped
  · exact fun _ backslash => absurd backslash unescaped
  · exact fun _ _ backslash => absurd backslash unescaped

/-- Whatever an escaped character is, a literal goes on after it.
Witness: a line feed after an escaped carriage return is part of the escape in strings, and
an ordinary character in templates.
-/
theorem isBody_escaped {c : Char} {rest : List Char} (goesOn : isBody style rest)
    : isBody style ('\\' :: c :: rest) := by
  rw [isBody.eq_def]
  split
  · rfl
  · next equal => simp at equal
  · next after equal =>
      simp only [List.cons.injEq, true_and] at equal
      obtain ⟨-, rfl⟩ := equal
      rw [isBody_cons (by decide)] at goesOn
      simp_all
  · next equal =>
      simp only [List.cons.injEq, true_and] at equal
      obtain ⟨-, rfl⟩ := equal
      exact goesOn
  · next escapes equal =>
      simp only [List.cons.injEq] at equal
      obtain ⟨rfl, rfl⟩ := equal
      exact absurd rfl (escapes _ _ rfl)

-----------------------------------------------------------------------------------------
-- One account of how strings and templates are closed
-----------------------------------------------------------------------------------------

/-- How far a literal without substitutions reaches after its first quote, and whether it is
closed there. -/
def literalReach (style : QuoteStyle) (text : List Char) : Reach :=
  if style == .backtick then
    ⟨(templateReach text).length, (templateReach text).stop == .backtick⟩
  else
    stringReach style.quote text

/-- No literal is closed where the source ends. -/
theorem literalReach_nil
    : literalReach style [] = ⟨0, false⟩ := by
  cases style <;> rfl

/-- A backslash at the end of the source closes no literal. -/
theorem literalReach_backslash
    : (literalReach style ['\\']).closed = false := by
  cases style <;> decide

/-- What an unescaped character is to a string. -/
theorem stringReach_cons {quote c : Char} {rest : List Char} (unescaped : c ≠ '\\')
    : stringReach quote (c :: rest)
      = if c == quote then ⟨1, true⟩
        else if c == '\n' || c == '\r' then ⟨1, false⟩
        else (stringReach quote rest).after 1 := by
  rw [stringReach]
  · exact fun _ backslash => absurd backslash unescaped
  · exact fun _ _ backslash => absurd backslash unescaped

/-- What an unescaped character is to a template. -/
theorem templateReach_cons {c : Char} {rest : List Char} (unescaped : c ≠ '\\')
    : templateReach (c :: rest)
      = if c == '\x60' then ⟨1, .backtick⟩
        else if c == '$' && rest.head? == some '\x7b' then ⟨2, .substitution⟩
        else (templateReach rest).after 1 := by
  rw [templateReach.eq_def]
  split
  · next equal => cases equal
  · next equal => simp_all
  · next equal => simp_all
  · next equal => simp_all
  · next noTick noBrace _ equal =>
      obtain ⟨rfl, rfl⟩ := List.cons.inj equal
      have noSubstitution : ¬(c = '$' ∧ rest.head? = some '\x7b') := by
        rintro ⟨dollar, brace⟩
        obtain ⟨after, opened⟩ := List.head?_eq_some_iff.mp brace
        exact noBrace after dollar opened
      have tick : c ≠ '\x60' := noTick
      simp [tick, noSubstitution]

/-- An unescaped character that does not end a literal is part of it. -/
theorem literalReach_cons {c : Char} {rest : List Char} (unescaped : c ≠ '\\')
    (inside : endsBody style c rest.head? = false)
    : literalReach style (c :: rest) = (literalReach style rest).after 1 := by
  cases style with
  | single | double =>
      simp_all [endsBody, literalReach, stringReach_cons, Reach.after, QuoteStyle.quote]
  | backtick =>
      simp only [endsBody, QuoteStyle.quote, beq_self_eq_true, if_true, Bool.or_eq_false_iff]
        at inside
      simp only [literalReach, beq_self_eq_true, if_true, templateReach_cons unescaped, inside,
        Bool.false_eq_true, if_false, Reach.after, TemplateReach.after]

/-- The quote of a literal closes it. -/
theorem literalReach_quote {rest : List Char}
    : literalReach style (style.quote :: rest) = ⟨1, true⟩ := by
  cases style <;> simp [literalReach, stringReach_cons, templateReach_cons, QuoteStyle.quote]

/-- An unescaped character that ends a literal and is not its quote leaves it open. -/
theorem literalReach_ended {c : Char} {rest : List Char} (unescaped : c ≠ '\\')
    (notQuote : c ≠ style.quote) (ends : endsBody style c rest.head?)
    : (literalReach style (c :: rest)).closed = false := by
  cases style <;>
    simp_all [endsBody, literalReach, stringReach_cons, templateReach_cons, QuoteStyle.quote]

/-- An escaped CR LF pair is part of a literal. -/
theorem literalReach_pair {rest : List Char}
    : literalReach style ('\\' :: '\r' :: '\n' :: rest) = (literalReach style rest).after 3 := by
  cases style <;> simp [literalReach, stringReach, templateReach, Reach.after,
    TemplateReach.after]

/-- An escaped character that begins no CR LF pair is part of a literal. -/
theorem literalReach_escaped {c : Char} {rest : List Char}
    (unpaired : c = '\r' → rest.head? ≠ some '\n')
    : literalReach style ('\\' :: c :: rest) = (literalReach style rest).after 2 := by
  have single (quote : Char)
      : stringReach quote ('\\' :: c :: rest) = (stringReach quote rest).after 2 := by
    rw [stringReach]
    rintro after rfl rfl
    exact unpaired rfl rfl
  cases style <;> simp [literalReach, templateReach, Reach.after, TemplateReach.after, single]

/-- A literal is closed by the quote after its body, whatever follows. -/
theorem literalReach_of_isBody {body : List Char} (goesOn : isBody style body)
    (rest : List Char)
    : literalReach style (body ++ style.quote :: rest) = ⟨body.length + 1, true⟩ := by
  fun_induction isBody style body with
  | case1 => exact literalReach_quote
  | case2 => cases goesOn
  | case3 after ih => simp [literalReach_pair, Reach.after, ih goesOn]
  | case4 c after unpaired ih =>
      have stillUnpaired : c = '\r' → (after ++ style.quote :: rest).head? ≠ some '\n' := by
        intro returns feed
        cases after with
        | nil => cases style <;> simp [QuoteStyle.quote] at feed
        | cons first others =>
            simp only [List.cons_append, List.head?_cons, Option.some.injEq] at feed
            exact unpaired others returns (by rw [feed])
      simp [literalReach_escaped stillUnpaired, Reach.after, ih goesOn]
  | case5 c after notLast notPair notEscape ih =>
      have unescaped := unescaped_of_cases notLast notEscape
      simp only [Bool.and_eq_true, Bool.not_eq_true'] at goesOn
      have inside : endsBody style c (after ++ style.quote :: rest).head? = false := by
        cases after with
        | nil => exact (endsBody_quote c).trans goesOn.1
        | cons first others => exact goesOn.1
      rw [List.cons_append, literalReach_cons unescaped inside, ih goesOn.2]
      rfl

/-- A closed literal is a body and the quote after it.
Witness: the text up to the place where the scanner stops, by the cases of its characters.
-/
theorem isBody_of_closed {text : List Char} (closed : (literalReach style text).closed)
    : ∃ body rest, text = body ++ style.quote :: rest ∧ isBody style body := by
  fun_induction isBody style text with
  | case1 =>
      rw [literalReach_nil] at closed
      cases closed
  | case2 =>
      rw [literalReach_backslash] at closed
      cases closed
  | case3 after ih =>
      rw [literalReach_pair] at closed
      obtain ⟨body, rest, rfl, goesOn⟩ := ih closed
      exact ⟨'\\' :: '\r' :: '\n' :: body, rest, rfl, by rwa [isBody]⟩
  | case4 c after unpaired ih =>
      have stillUnpaired : c = '\r' → after.head? ≠ some '\n' := by
        intro isReturn feed
        obtain ⟨others, rfl⟩ := List.head?_eq_some_iff.mp feed
        exact unpaired others isReturn rfl
      rw [literalReach_escaped stillUnpaired] at closed
      obtain ⟨body, rest, rfl, goesOn⟩ := ih closed
      exact ⟨'\\' :: c :: body, rest, rfl, isBody_escaped goesOn⟩
  | case5 c after notLast notPair notEscape ih =>
      have unescaped := unescaped_of_cases notLast notEscape
      by_cases isQuote : c = style.quote
      · exact ⟨[], after, by rw [isQuote, List.nil_append], rfl⟩
      · cases ends : endsBody style c after.head? with
        | true =>
            rw [literalReach_ended unescaped isQuote ends] at closed
            cases closed
        | false =>
            rw [literalReach_cons unescaped ends] at closed
            obtain ⟨body, rest, rfl, goesOn⟩ := ih closed
            refine ⟨c :: body, rest, rfl, ?_⟩
            rw [isBody_cons unescaped, goesOn, Bool.and_true, Bool.not_eq_true', ← ends]
            cases body with
            | nil => exact (endsBody_quote c).symm
            | cons first others => rfl

end ScriptStyle.Literal
