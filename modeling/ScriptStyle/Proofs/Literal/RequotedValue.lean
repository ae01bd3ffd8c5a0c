import ScriptStyle.Proofs.Literal.Requoting
import ScriptStyle.Proofs.Scanner.Reading

/-!
Requoting a literal token gives a literal of the same value in the other quotes, and fails only
for the escapes that a template cannot hold.
-/

namespace ScriptStyle.Literal

variable {current target style : QuoteStyle} {body : List Char}

-----------------------------------------------------------------------------------------
-- Literals in quotes
-----------------------------------------------------------------------------------------

/-- The style of a literal is that of its quotes. -/
@[simp] theorem ofLiteral?_enclose
    : QuoteStyle.ofLiteral? (style.enclose body) = some style := by
  cases style <;> rfl

/-- What is between the delimiters of a literal is its body. -/
@[simp] theorem inner_enclose
    : inner (style.enclose body) = body := by
  have single : style.quote.utf8Size = 1 := by cases style <;> rfl
  have sliced := Text.slice_append [style.quote] body [style.quote]
  simp only [Text.byteLength_cons, Text.byteLength_nil, single, Nat.add_zero,
    List.singleton_append] at sliced
  have stop : Text.byteLength (style.enclose body) - 1 = 1 + Text.byteLength body := by
    simp [QuoteStyle.enclose, single]
    omega
  rw [inner, stop]
  exact sliced

/-- The elements of a literal are those of its body in its own style. -/
@[simp] theorem literalElements?_enclose
    : literalElements? (style.enclose body) = elements? style 0 body := by
  rw [literalElements?, ofLiteral?_enclose, Option.bind_some, QuoteStyle.enclose, List.tail_cons,
    List.dropLast_concat]

-----------------------------------------------------------------------------------------
-- What requoting makes of a literal
-----------------------------------------------------------------------------------------

/-- Where escapes are to be avoided, a literal keeps its quotes if it holds the wanted ones and none
of its own. -/
def KeepsQuotes (avoidEscape : Bool) (current target : QuoteStyle) (body : List Char) : Prop :=
  avoidEscape ∧ target.quote ∈ body ∧ current.quote ∉ body

variable {avoidEscape : Bool}

/-- A literal in other than the wanted quotes is kept exactly to avoid escapes. -/
theorem kept_iff (different : target ≠ current)
    : requote (current.enclose body) current target avoidEscape = .kept
      ↔ KeepsQuotes avoidEscape current target body := by
  simp only [requote, inner_enclose, KeepsQuotes]
  split_ifs <;> simp_all

/-- A literal that is not kept is given up exactly if it would bring an octal escape into a
template. -/
theorem impossible_iff (different : target ≠ current)
    : requote (current.enclose body) current target avoidEscape = .impossible
      ↔ ¬KeepsQuotes avoidEscape current target body
        ∧ target = .backtick ∧ hasOctalEscape body := by
  simp only [requote, inner_enclose, KeepsQuotes]
  split_ifs <;> simp_all

/-- Any other literal becomes its requoted body in the wanted quotes. -/
theorem rewritten_iff (different : target ≠ current) {text : String}
    : requote (current.enclose body) current target avoidEscape = .rewritten text
      ↔ ¬KeepsQuotes avoidEscape current target body
        ∧ ¬(target = .backtick ∧ hasOctalEscape body)
        ∧ String.ofList (target.enclose (requoteBody current target body)) = text := by
  simp only [requote, inner_enclose]
  split_ifs <;> simp_all [KeepsQuotes, QuoteStyle.enclose]

/-- What requoting makes of a literal with a body. -/
structure RequotesTo (raw : List Char) (current target : QuoteStyle) (avoidEscape : Bool)
    (body : List Char) : Prop where
  spelled : raw = current.enclose body
  kept
    : requote raw current target avoidEscape = .kept ↔ KeepsQuotes avoidEscape current target body
  /-- A literal is given up only for an octal escape that a template cannot hold. -/
  impossible
    : requote raw current target avoidEscape = .impossible
      ↔ ¬KeepsQuotes avoidEscape current target body ∧ target = .backtick ∧ holdsOctal raw
  /-- Any other literal is rewritten. -/
  rewrites
    : (∃ text, requote raw current target avoidEscape = .rewritten text)
      ↔ ¬KeepsQuotes avoidEscape current target body ∧ ¬(target = .backtick ∧ holdsOctal raw)
  /-- What is written is one token by itself, in the wanted quotes and of the same value. -/
  rewritten
    : ∀ text, requote raw current target avoidEscape = .rewritten text →
        (∃ between, text = String.ofList (target.enclose between))
        ∧ (∀ guess,
            (TokenList.scan (Scanner.ofText guess text.toList) .guessed).fault = none
            ∧ (TokenList.scan (Scanner.ofText guess text.toList) .guessed).tokens
              = [⟨target.tokenKind, ⟨0, text.utf8ByteSize⟩, text, false⟩])
        ∧ tokenize text
          = (if text.utf8ByteSize > TokenList.maxSourceLength then
              .error .sourceTooLarge
            else
              .ok [⟨target.tokenKind, ⟨0, text.utf8ByteSize⟩, text, false⟩])
        ∧ value? text.toList = value? raw
        ∧ (target = .backtick → holdsOctal text.toList = false)

/-- Requoting keeps the value of every literal whose escapes are well formed. It keeps the literal
only to avoid escapes, gives it up only for an octal escape in a template, and rewrites any other to
one token in the wanted quotes.
Witness: scanner and decoder agree on where a body ends, and requoting keeps its elements.
-/
theorem requote_preserves_value
    {scanner : Scanner} {reading : SlashReading} {token : Token} (avoidEscape : Bool)
    (read : (scanner.next reading).1 = .ok (some token))
    (isLiteral : token.kind = .string ∨ token.kind = .template)
    (own : QuoteStyle.ofLiteral? token.text.toList = some current)
    (wellFormed : (value? token.text.toList).isSome)
    (different : target ≠ current)
    : ∃ body, RequotesTo token.text.toList current target avoidEscape body := by
  obtain ⟨style, body, spelled, goesOn, -⟩ := Scanner.literal_of_next (Prod.ext read rfl) isLiteral
  rw [spelled] at own wellFormed ⊢
  obtain rfl : style = current := by simpa using own
  obtain ⟨found, decoded⟩ : ∃ found, elements? style 0 body = some found := by
    simpa [value?, Option.isSome_iff_exists] using wellFormed
  have octal := hasOctalEscape_eq_any (by simp) decoded
  have holds : holdsOctal (style.enclose body) = hasOctalEscape body := by
    rw [holdsOctal, literalElements?_enclose, decoded, Option.any_some, octal]
  refine ⟨body, rfl, kept_iff different, holds ▸ impossible_iff different, ?_, ?_⟩
  · simp only [holds, rewritten_iff different, exists_and_left, exists_eq', and_true]
  · intro text requoted
    obtain ⟨-, fits, rfl⟩ := (rewritten_iff different).mp requoted
    have notOctal (template : target = .backtick) : hasOctalEscape body = false := by
      simpa [template] using fits
    have stillGoesOn := isBody_requoteBody different goesOn
    have stillDecoded : elements? target 0 (requoteBody style target body) = some found := by
      refine elements?_requoteBody different goesOn (by simp) decoded ?_
      intro element member template
      rw [octal] at notOctal
      simpa using List.any_eq_false.mp (notOctal template) element member
    refine ⟨⟨_, rfl⟩, Scanner.tokens_enclose stillGoesOn rfl,
      Scanner.tokenize_enclose stillGoesOn rfl, ?_, ?_⟩
    · simp [value?, decoded, stillDecoded]
    · intro template
      rw [holdsOctal, String.toList_ofList, literalElements?_enclose, stillDecoded,
        Option.any_some, ← octal, notOctal template]

/-- A string with an escaped quote, a substitution and an escape of two digits goes into backticks,
one with an octal escape cannot, and one that holds a backtick keeps its quotes. -/
theorem requote_preserves_value_of_escaped_quote
    : (((Scanner.ofText SlashGuess.standard "'it\\'s $\x7b\\x41'".toList).next .guessed).1
          = .ok (some ⟨.string, ⟨0, 14⟩, "'it\\'s $\x7b\\x41'", false⟩)
        ∧ requote "'it\\'s $\x7b\\x41'".toList .single .backtick false
          = .rewritten "\x60it's \\$\x7b\\x41\x60"
        ∧ tokenize "\x60it's \\$\x7b\\x41\x60"
          = .ok [⟨.template, ⟨0, 14⟩, "\x60it's \\$\x7b\\x41\x60", false⟩]
        ∧ value? "\x60it's \\$\x7b\\x41\x60".toList = value? "'it\\'s $\x7b\\x41'".toList)
      ∧ (((Scanner.ofText SlashGuess.standard "'\\101'".toList).next .guessed).1
          = .ok (some ⟨.string, ⟨0, 6⟩, "'\\101'", false⟩)
        ∧ requote "'\\101'".toList .single .backtick false = .impossible)
      ∧ ((Scanner.ofText SlashGuess.standard "'a\x60'".toList).next .guessed).1
          = .ok (some ⟨.string, ⟨0, 4⟩, "'a\x60'", false⟩)
        ∧ requote "'a\x60'".toList .single .backtick true = .kept := by
  have different : QuoteStyle.backtick ≠ .single := by decide
  refine ⟨?_, ?_, ?_⟩
  · have read
        : ((Scanner.ofText SlashGuess.standard "'it\\'s $\x7b\\x41'".toList).next .guessed).1
          = .ok (some ⟨.string, ⟨0, 14⟩, "'it\\'s $\x7b\\x41'", false⟩) := by
      rfl
    obtain ⟨body, requotes⟩ := requote_preserves_value false read (.inl rfl)
      (rfl : _ = some QuoteStyle.single) (by decide) different
    have requoted : requote "'it\\'s $\x7b\\x41'".toList .single .backtick false
        = .rewritten "\x60it's \\$\x7b\\x41\x60" := by
      decide +kernel
    obtain ⟨-, -, scanned, same, -⟩ := requotes.rewritten _ requoted
    exact ⟨read, requoted, scanned, same⟩
  · have read
        : ((Scanner.ofText SlashGuess.standard "'\\101'".toList).next .guessed).1
          = .ok (some ⟨.string, ⟨0, 6⟩, "'\\101'", false⟩) := by
      rfl
    obtain ⟨body, requotes⟩ := requote_preserves_value false read (.inl rfl)
      (rfl : _ = some QuoteStyle.single) (by decide) different
    exact ⟨read, requotes.impossible.mpr ⟨nofun, rfl, by decide⟩⟩
  · have read
        : ((Scanner.ofText SlashGuess.standard "'a\x60'".toList).next .guessed).1
          = .ok (some ⟨.string, ⟨0, 4⟩, "'a\x60'", false⟩) := by
      rfl
    obtain ⟨body, requotes⟩ := requote_preserves_value true read (.inl rfl)
      (rfl : _ = some QuoteStyle.single) (by decide) different
    have between : body = ['a', '\x60'] :=
      (inner_enclose.symm.trans (congrArg inner requotes.spelled.symm)).trans (by decide)
    subst between
    exact ⟨read, requotes.kept.mpr ⟨rfl, by decide, by decide⟩⟩

end ScriptStyle.Literal
