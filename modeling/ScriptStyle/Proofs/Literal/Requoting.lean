import ScriptStyle.Proofs.Literal.Body
import ScriptStyle.Proofs.Literal.Value

/-!
Requoting the text of a literal keeps its elements. Quotes, dollar signs and line breaks are the
only characters that are written in another way, and no escape reads across them.
-/

namespace ScriptStyle.Literal

variable {current target style : QuoteStyle}

-----------------------------------------------------------------------------------------
-- Plain runs
-----------------------------------------------------------------------------------------

section PlainRuns

variable {first second : List Char} {p : Char → Bool}

/-- Texts with one plain run in front begin with the same characters of a plain property. -/
theorem takeWhile_eq_of_plainRun (same : first.takeWhile isPlain = second.takeWhile isPlain)
    (plain : ∀ c, p c → isPlain c)
    : first.takeWhile p = second.takeWhile p := by
  have inner (text : List Char) : (text.takeWhile isPlain).takeWhile p = text.takeWhile p := by
    rw [List.takeWhile_takeWhile]
    congr 1
    funext c
    cases holds : p c with
    | false => simp
    | true => simp [plain c holds]
  rw [← inner first, ← inner second, same]

/-- Texts with one plain run in front agree on whether they begin with a plain property. -/
theorem head?_any_eq_of_plainRun (same : first.takeWhile isPlain = second.takeWhile isPlain)
    (plain : ∀ c, p c → isPlain c)
    : first.head?.any p = second.head?.any p := by
  have nonempty (text : List Char) : text.head?.any p = !(text.takeWhile p).isEmpty := by
    cases text with
    | nil => rfl
    | cons c rest => cases holds : p c <;> simp [holds]
  rw [nonempty, nonempty, takeWhile_eq_of_plainRun same plain]

/-- Texts with one plain run in front begin with the same plain character, or with none. -/
theorem head?_eq_of_plainRun {c : Char}
    (same : first.takeWhile isPlain = second.takeWhile isPlain) (plain : isPlain c)
    : first.head? = some c ↔ second.head? = some c := by
  have agree := head?_any_eq_of_plainRun (p := (· == c)) same fun x equal => by
    rw [eq_of_beq equal]
    exact plain
  cases first <;> cases second <;> simp_all

/-- Texts with one plain run in front keep one when characters of a plain property are dropped. -/
theorem plainRun_dropWhile (same : first.takeWhile isPlain = second.takeWhile isPlain)
    (plain : ∀ c, p c → isPlain c)
    : (first.dropWhile p).takeWhile isPlain = (second.dropWhile p).takeWhile isPlain := by
  have joined (text : List Char)
      : text.takeWhile isPlain = text.takeWhile p ++ (text.dropWhile p).takeWhile isPlain := by
    induction text with
    | nil => rfl
    | cons c rest ih =>
        cases holds : p c with
        | false => simp [holds]
        | true => simp [holds, plain c holds, ih]
  have start := takeWhile_eq_of_plainRun same plain
  rw [joined first, joined second, start] at same
  exact List.append_cancel_left same

end PlainRuns

-----------------------------------------------------------------------------------------
-- Escapes do not see what stands after a plain run
-----------------------------------------------------------------------------------------

section Escapes

variable {first second : List Char} {element : Element} {length : Nat}

/-- An escape of hexadecimal digits is read in the plain run after its letter. -/
theorem hexEscape?_of_plainRun (same : first.takeWhile isPlain = second.takeWhile isPlain)
    (count : Nat)
    : hexEscape? count first = hexEscape? count second := by
  simp only [hexEscape?, takeWhile_eq_of_plainRun same fun _ => isPlain_of_isHexDigit]

/-- An escape between braces is read in the plain run after its first brace. -/
theorem bracedEscape?_of_plainRun (same : first.takeWhile isPlain = second.takeWhile isPlain)
    : bracedEscape? first = bracedEscape? second := by
  have digits := takeWhile_eq_of_plainRun same fun _ => isPlain_of_isHexDigit
  have brace := head?_eq_of_plainRun (c := '}')
    (plainRun_dropWhile same fun _ => isPlain_of_isHexDigit) (by decide)
  simp only [bracedEscape?, digits, brace]

/-- An escape that begins with a digit is read in the plain run after that digit, and in another
style of quotes it is the same unless that style has no such escapes. -/
theorem digitEscape?_of_plainRun (same : first.takeWhile isPlain = second.takeWhile isPlain)
    (allowed : target = .backtick → element.isOctal = false) {digit : Char}
    (escaped : digitEscape? current digit first = some (element, length))
    : digitEscape? target digit second = some (element, length) := by
  have digits := takeWhile_eq_of_plainRun same fun _ => isPlain_of_isOctalDigit
  have follows := head?_any_eq_of_plainRun same fun _ => isPlain_of_isDigit
  simp only [digitEscape?] at escaped ⊢
  rw [digits, follows] at escaped
  by_cases isNull : digit = '0' ∧ (!second.head?.any Char.isDigit) = true
  · rw [if_pos isNull] at escaped ⊢
    exact escaped
  · rw [if_neg isNull] at escaped ⊢
    have isOctal : element.isOctal := by
      split_ifs at escaped <;> obtain ⟨rfl, -⟩ := Prod.mk.inj (Option.some.inj escaped) <;> rfl
    have notTemplate : target ≠ .backtick := fun isTemplate => by
      rw [allowed isTemplate] at isOctal
      cases isOctal
    have wasString : current ≠ .backtick := fun wasTemplate => by
      rw [if_pos wasTemplate] at escaped
      cases escaped
    rw [if_neg wasString] at escaped
    rw [if_neg notTemplate]
    exact escaped

/-- An escape is read in the plain run after its first character, save an escaped CR LF pair. -/
theorem escape?_of_plainRun (same : first.takeWhile isPlain = second.takeWhile isPlain)
    (allowed : target = .backtick → element.isOctal = false) {c : Char}
    (unpaired : c = '\r' → first.head? ≠ some '\n' ∧ second.head? ≠ some '\n')
    (escaped : escape? current (c :: first) = some (element, length))
    : escape? target (c :: second) = some (element, length) := by
  have brace := head?_eq_of_plainRun (c := '\x7b') same (by decide)
  have alone : ¬(c = '\r' ∧ first.head? = some '\n') := fun pair => (unpaired pair.1).1 pair.2
  have stillAlone : ¬(c = '\r' ∧ second.head? = some '\n') := fun pair =>
    (unpaired pair.1).2 pair.2
  simp only [escape?, alone, stillAlone, brace, if_false] at escaped ⊢
  split_ifs at escaped ⊢ with isX isU braced isDigit isBreak
  · rw [← escaped, hexEscape?_of_plainRun same]
  · obtain ⟨after, rfl⟩ := List.head?_eq_some_iff.mp braced
    obtain ⟨before, rfl⟩ := List.head?_eq_some_iff.mp (brace.mpr braced)
    have plain : isPlain '\x7b' := by decide
    simp only [List.takeWhile_cons, plain, if_true, List.cons.injEq, true_and] at same
    rw [← escaped, List.tail_cons, List.tail_cons, bracedEscape?_of_plainRun same]
  · rw [← escaped, hexEscape?_of_plainRun same]
  · exact digitEscape?_of_plainRun same allowed escaped
  · exact escaped
  · exact escaped

end Escapes

-----------------------------------------------------------------------------------------
-- The characters that requoting writes
-----------------------------------------------------------------------------------------

/-- A quote is no plain character. -/
theorem isPlain_quote (style : QuoteStyle)
    : isPlain style.quote = false := by
  cases style <;> decide

/-- A character that is escaped or dropped in requoting is not plain. -/
theorem isPlain_of_isSpecial {c : Char} {next : Option Char}
    (special : c == style.quote || (style == .backtick && c == '$' && next == some '\x7b'))
    : isPlain c = false := by
  rcases Bool.or_eq_true_iff.mp special with quote | substitution
  · rw [eq_of_beq quote, isPlain_quote]
  · simp only [Bool.and_eq_true] at substitution
    rw [eq_of_beq substitution.1.2]
    decide

/-- Requoting keeps the plain run in front of a text.
Witness: what is written for a character that is not plain begins with no plain character either.
-/
theorem plainRun_requoteBody (text : List Char)
    : (requoteBody current target text).takeWhile isPlain = text.takeWhile isPlain := by
  have backslash : isPlain '\\' = false := by decide
  have carriage : isPlain '\r' = false := by decide
  fun_induction requoteBody current target text with
  | case1 => rfl
  | case2 => rfl
  | case3 => simp [backslash]
  | case4 c rest unpaired special =>
      simp [backslash, isPlain_of_isSpecial special]
  | case5 => simp [backslash]
  | case6 => simp [backslash, carriage]
  | case7 => simp [carriage]
  | case8 c rest _ _ _ _ special => simp [backslash, isPlain_of_isSpecial special]
  | case9 c rest _ _ _ _ _ isBreak =>
      have notPlain : isPlain c = false := by
        simp only [Bool.and_eq_true, Bool.or_eq_true, beq_iff_eq] at isBreak
        rcases isBreak.2 with rfl | rfl <;> decide
      simp [backslash, notPlain]
  | case10 c rest _ _ _ _ _ _ ih =>
      cases plain : isPlain c <;> simp [plain, ih]

/-- Requoting makes a body in other quotes. -/
theorem isBody_requoteBody {text : List Char} (different : target ≠ current)
    (goesOn : isBody current text)
    : isBody target (requoteBody current target text) := by
  fun_induction requoteBody current target text with
  | case1 => rfl
  | case2 => cases goesOn
  | case3 rest ih =>
      rw [isBody] at goesOn ⊢
      exact ih goesOn
  | case4 c rest unpaired special ih =>
      rw [isBody] at goesOn
      · have unescaped : c ≠ '\\' := by
          rintro rfl
          cases current <;> simp [QuoteStyle.quote] at special
        rw [isBody_cons unescaped, ih goesOn, Bool.and_true, Bool.not_eq_true']
        rcases Bool.or_eq_true_iff.mp special with quote | substitution
        · rw [eq_of_beq quote]
          cases current <;> cases target <;> simp_all [endsBody, QuoteStyle.quote]
        · simp only [Bool.and_eq_true, beq_iff_eq] at substitution
          obtain ⟨⟨rfl, rfl⟩, -⟩ := substitution
          cases target <;> simp_all [endsBody, QuoteStyle.quote]
      · exact unpaired
  | case5 c rest unpaired _ ih =>
      rw [isBody] at goesOn
      · exact isBody_escaped (ih goesOn)
      · exact unpaired
  | case6 rest _ ih => 
      rw [isBody_cons (by decide), isBody_cons (by decide)] at goesOn
      simp only [Bool.and_eq_true] at goesOn
      exact isBody_escaped (ih goesOn.2.2)
  | case7 rest isString ih =>
      rw [isBody_cons (by decide)] at goesOn
      simp [endsBody, isString] at goesOn
  | case8 c rest notLast _ notEscape _ special ih =>
      rw [isBody_cons (unescaped_of_cases notLast notEscape), Bool.and_eq_true] at goesOn
      exact isBody_escaped (ih goesOn.2)
  | case9 c rest notLast _ notEscape _ _ isBreak ih =>
      rw [isBody_cons (unescaped_of_cases notLast notEscape), Bool.and_eq_true] at goesOn
      exact isBody_escaped (ih goesOn.2)
  | case10 c rest notLast _ notEscape _ ordinary notBreak ih =>
      rw [isBody_cons (unescaped_of_cases notLast notEscape), Bool.and_eq_true] at goesOn
      rw [isBody_cons (unescaped_of_cases notLast notEscape), Bool.and_eq_true]
      refine ⟨?_, ih goesOn.2⟩
      have brace : (requoteBody current target rest).head? = some '\x7b'
          ↔ rest.head? = some '\x7b' :=
        head?_eq_of_plainRun (plainRun_requoteBody rest) (by decide)
      simp only [Bool.not_eq_true', endsBody] at goesOn ⊢
      cases current <;> cases target <;> simp_all [QuoteStyle.quote, imp_iff_not_or]

/-- Requoting writes a line feed first only for a text that begins with one. -/
theorem head?_of_requoteBody_lineFeed {text : List Char}
    (feed : (requoteBody current target text).head? = some '\n')
    : text.head? = some '\n' := by
  fun_induction requoteBody current target text with
  | case4 c rest _ special =>
      obtain rfl : c = '\n' := by simpa using feed
      cases current <;> simp [QuoteStyle.quote] at special
  | _ => simp_all

-----------------------------------------------------------------------------------------
-- Elements
-----------------------------------------------------------------------------------------

section Elements

variable {c : Char} {rest : List Char}

/-- An escape takes at least the character after its backslash. -/
theorem escape?_length_pos {text : List Char} {element : Element} {length : Nat}
    (escaped : escape? style text = some (element, length))
    : 0 < length := by
  cases text with
  | nil => cases escaped
  | cons c rest =>
      simp only [escape?, hexEscape?, bracedEscape?, digitEscape?] at escaped
      split_ifs at escaped <;> simp_all <;> omega

/-- An escaped quote or dollar sign stands for itself. -/
theorem escape?_special {other : QuoteStyle} {next : Option Char}
    (special : c == other.quote || (other == .backtick && c == '$' && next == some '\x7b'))
    : escape? style (c :: rest) = some (.codePoint c.toNat, 1) := by
  have stands (d : Char) (quote : d ∈ ['\'', '\x22', '\x60', '$'])
      : escape? style (d :: rest) = some (.codePoint d.toNat, 1) := by
    simp only [List.mem_cons, List.not_mem_nil, or_false] at quote
    rcases quote with rfl | rfl | rfl | rfl <;> rfl
  apply stands
  rcases Bool.or_eq_true_iff.mp special with quote | substitution
  · rw [eq_of_beq quote]
    cases other <;> decide
  · simp only [Bool.and_eq_true, beq_iff_eq] at substitution
    rw [substitution.1.2]
    decide

/-- A character that is no backslash and no line break of a template is an element. -/
theorem elements?_ordinary (unescaped : c ≠ '\\') (unbroken : ¬(style = .backtick ∧ c = '\r'))
    : elements? style 0 (c :: rest) = (elements? style 0 rest).map (.codePoint c.toNat :: ·) := by
  simp only [elements?, unescaped, unbroken, if_false]

/-- An escape is an element. -/
theorem elements?_escaped {element : Element} {length : Nat}
    (escaped : escape? style (c :: rest) = some (element, length + 1))
    : elements? style 0 ('\\' :: c :: rest)
      = (elements? style length rest).map (element :: ·) := by
  simp only [elements?, escaped, if_true, Option.bind_some]

end Elements

/-- A text that does not begin with a plain character begins with no rest of an escape. -/
theorem skip_eq_zero {c : Char} {rest : List Char} {skip : Nat}
    (inert : ∀ x ∈ (c :: rest).take skip, isPlain x) (special : isPlain c = false)
    : skip = 0 := by
  cases skip with
  | zero => rfl
  | succ skip =>
      have plain := inert c List.mem_cons_self
      rw [special] at plain
      cases plain

/-- An element in front of the same elements gives the same elements. -/
theorem map_cons_eq_some {front : Element} {found : List Element} {before after : Option (List Element)}
    {isAllowed : Element → Prop} (decoded : before.map (front :: ·) = some found)
    (allowed : ∀ element ∈ found, isAllowed element)
    (keeps : ∀ others, before = some others → (∀ element ∈ others, isAllowed element)
      → after = some others)
    : after.map (front :: ·) = some found := by
  obtain ⟨others, inner, rfl⟩ := Option.map_eq_some_iff.mp decoded
  rw [keeps others inner fun element member => allowed element (List.mem_cons_of_mem _ member),
    Option.map_some]

/-- Requoting keeps the elements of a text, also those after the rest of an escape.
Witness: induction along the rewriting. An escape is read in the plain run after its first
character, which is copied; every other character is an element of its own on both sides.
-/
theorem elements?_requoteBody {text : List Char} {skip : Nat} {found : List Element}
    (different : target ≠ current)
    (goesOn : isBody current text)
    (inert : ∀ x ∈ text.take skip, isPlain x)
    (decoded : elements? current skip text = some found)
    (allowed : ∀ element ∈ found, target = .backtick → element.isOctal = false)
    : elements? target skip (requoteBody current target text) = some found := by
  have backslash : isPlain '\\' = false := by decide
  have carriage : isPlain '\r' = false := by decide
  have feed (after : List Char) : escape? target ('n' :: after) = some (.codePoint 10, 1) := rfl
  have noRest (after : List Char) : ∀ x ∈ after.take 0, isPlain x := by simp
  fun_induction requoteBody current target text generalizing skip found with
  | case1 => exact decoded
  | case2 =>
      obtain rfl := skip_eq_zero inert backslash
      simp [elements?, escape?] at decoded
  | case3 rest ih =>
      obtain rfl := skip_eq_zero inert backslash
      rw [isBody] at goesOn
      have escaped (style : QuoteStyle) (after : List Char)
          : escape? style ('\r' :: '\n' :: after) = some (.continuation, 2) := rfl
      rw [elements?_escaped (escaped _ _)] at decoded ⊢
      simp only [elements?] at decoded ⊢
      exact map_cons_eq_some decoded allowed fun _ => ih goesOn (noRest _)
  | case4 c rest unpaired special ih =>
      obtain rfl := skip_eq_zero inert backslash
      rw [isBody] at goesOn
      · have ordinary : c ≠ '\\' ∧ c ≠ '\r' := by
          constructor <;> rintro rfl <;> cases current <;> simp [QuoteStyle.quote] at special
        rw [elements?_escaped (escape?_special special)] at decoded
        rw [elements?_ordinary ordinary.1 fun broken => ordinary.2 broken.2]
        exact map_cons_eq_some decoded allowed fun _ => ih goesOn (noRest _)
      · exact unpaired
  | case5 c rest unpaired _ ih =>
      obtain rfl := skip_eq_zero inert backslash
      rw [isBody] at goesOn
      · cases escaped : escape? current (c :: rest) with
        | none => simp [elements?, escaped] at decoded
        | some front =>
            obtain ⟨element, length⟩ := front
            obtain ⟨length, rfl⟩ : ∃ before, length = before + 1 :=
              Nat.exists_eq_add_one.mpr (escape?_length_pos escaped)
            have alone : c = '\r' → rest.head? ≠ some '\n' := by
              intro isReturn isFeed
              obtain ⟨after, rfl⟩ := List.head?_eq_some_iff.mp isFeed
              exact unpaired after isReturn rfl
            rw [elements?_escaped escaped] at decoded
            have isFirst : element ∈ found := by
              obtain ⟨others, -, rfl⟩ := Option.map_eq_some_iff.mp decoded
              exact List.mem_cons_self
            have stillEscaped
                : escape? target (c :: requoteBody current target rest)
                  = some (element, length + 1) :=
              escape?_of_plainRun (plainRun_requoteBody rest).symm (allowed element isFirst)
                (fun isReturn => ⟨alone isReturn,
                  fun isFeed => alone isReturn (head?_of_requoteBody_lineFeed isFeed)⟩)
                escaped
            have within := plain_of_escape escaped fun pair => alone pair.1 pair.2
            rw [elements?_escaped stillEscaped]
            exact map_cons_eq_some decoded allowed fun _ => ih goesOn within
      · exact unpaired
  | case6 rest isTemplate ih =>
      obtain rfl := skip_eq_zero inert carriage
      obtain rfl := eq_of_beq isTemplate
      rw [isBody_cons (by decide), isBody_cons (by decide)] at goesOn
      simp only [Bool.and_eq_true] at goesOn
      have broken
          : elements? .backtick 0 ('\r' :: '\n' :: rest)
            = (elements? .backtick 0 rest).map (.codePoint 10 :: ·) := by
        simp [elements?]
      rw [broken] at decoded
      rw [elements?_escaped (feed _)]
      exact map_cons_eq_some decoded allowed fun _ => ih goesOn.2.2 (noRest _)
  | case7 rest isString ih =>
      rw [isBody_cons (by decide)] at goesOn
      simp [endsBody, isString] at goesOn
  | case8 c rest notLast _ notEscape _ special ih =>
      obtain rfl := skip_eq_zero inert (isPlain_of_isSpecial special)
      have unescaped := unescaped_of_cases notLast notEscape
      rw [isBody_cons unescaped, Bool.and_eq_true] at goesOn
      have unbroken : ¬(current = .backtick ∧ c = '\r') := by
        rintro ⟨-, rfl⟩
        cases target <;> simp [QuoteStyle.quote] at special
      rw [elements?_ordinary unescaped unbroken] at decoded
      rw [elements?_escaped (escape?_special special)]
      exact map_cons_eq_some decoded allowed fun _ => ih goesOn.2 (noRest _)
  | case9 c rest notLast _ notEscape unpaired _ isBreak ih =>
      simp only [Bool.and_eq_true, Bool.or_eq_true, beq_iff_eq] at isBreak
      obtain ⟨rfl, isBreak⟩ := isBreak
      have notPlain : isPlain c = false := by rcases isBreak with rfl | rfl <;> decide
      obtain rfl := skip_eq_zero inert notPlain
      rw [isBody_cons (unescaped_of_cases notLast notEscape), Bool.and_eq_true] at goesOn
      have broken
          : elements? .backtick 0 (c :: rest)
            = (elements? .backtick 0 rest).map (.codePoint 10 :: ·) := by
        rcases isBreak with rfl | rfl
        · have alone : rest.head? ≠ some '\n' := by
            intro isFeed
            obtain ⟨after, rfl⟩ := List.head?_eq_some_iff.mp isFeed
            exact unpaired after rfl rfl
          simp [elements?, alone]
        · exact elements?_ordinary (by decide) (by decide)
      rw [broken] at decoded
      rw [elements?_escaped (feed _)]
      exact map_cons_eq_some decoded allowed fun _ => ih goesOn.2 (noRest _)
  | case10 c rest notLast _ notEscape _ ordinary notBreak ih =>
      have unescaped := unescaped_of_cases notLast notEscape
      rw [isBody_cons unescaped, Bool.and_eq_true] at goesOn
      cases skip with
      | succ skip =>
          exact ih goesOn.2 (fun x member => inert x (List.mem_cons_of_mem _ member)) decoded allowed
      | zero =>
          have unbroken : ¬(current = .backtick ∧ c = '\r') := by
            rintro ⟨rfl, rfl⟩
            exact notBreak rfl
          have stillUnbroken : ¬(target = .backtick ∧ c = '\r') := by
            rintro ⟨rfl, rfl⟩
            have isString : current ≠ .backtick := different.symm
            simp [endsBody, isString] at goesOn
          rw [elements?_ordinary unescaped unbroken] at decoded
          rw [elements?_ordinary unescaped stillUnbroken]
          exact map_cons_eq_some decoded allowed fun _ => ih goesOn.2 (noRest _)

-----------------------------------------------------------------------------------------
-- Octal escapes
-----------------------------------------------------------------------------------------

/-- An escape of hexadecimal digits is not octal. -/
theorem isOctal_of_hexEscape {count : Nat} {text : List Char} {element : Element} {length : Nat}
    (escaped : hexEscape? count text = some (element, length))
    : element.isOctal = false := by
  simp only [hexEscape?] at escaped
  split_ifs at escaped
  obtain ⟨rfl, -⟩ := Prod.mk.inj (Option.some.inj escaped)
  rfl

/-- An escape between braces is not octal. -/
theorem isOctal_of_bracedEscape {text : List Char} {element : Element} {length : Nat}
    (escaped : bracedEscape? text = some (element, length))
    : element.isOctal = false := by
  simp only [bracedEscape?] at escaped
  split at escaped
  · obtain ⟨rfl, -⟩ := Prod.mk.inj (Option.some.inj escaped)
    rfl
  · cases escaped

/-- An escape that begins with a digit is octal unless it is that of the null character. -/
theorem isOctal_of_digitEscape {digit : Char} {text : List Char} {element : Element} {length : Nat}
    (escaped : digitEscape? style digit text = some (element, length))
    : element.isOctal = !(digit == '0' && !text.head?.any Char.isDigit) := by
  simp only [digitEscape?] at escaped
  split at escaped
  · next isNull =>
      obtain ⟨rfl, -⟩ := Prod.mk.inj (Option.some.inj escaped)
      simp [Element.isOctal, isNull]
  · next notNull =>
      have isOctal : element.isOctal := by
        split_ifs at escaped <;> obtain ⟨rfl, -⟩ := Prod.mk.inj (Option.some.inj escaped) <;> rfl
      rw [isOctal, Eq.comm, Bool.not_eq_true', Bool.eq_false_iff]
      simpa using notNull

/-- Exactly the escapes that begin with a digit are octal, save that of the null character. -/
theorem isOctal_of_escape {c : Char} {rest : List Char} {element : Element} {length : Nat}
    (escaped : escape? style (c :: rest) = some (element, length))
    : element.isOctal = (c.isDigit && !(c == '0' && !rest.head?.any Char.isDigit)) := by
  simp only [escape?] at escaped
  split_ifs at escaped with isX isU braced isDigit isBreak
  · rw [isOctal_of_hexEscape escaped, isX]
    rfl
  · rw [isOctal_of_bracedEscape escaped, isU]
    rfl
  · rw [isOctal_of_hexEscape escaped, isU]
    rfl
  · rw [isOctal_of_digitEscape escaped, isDigit, Bool.true_and]
  all_goals
    obtain ⟨rfl, -⟩ := Prod.mk.inj (Option.some.inj escaped)
    simp [Element.isOctal, isDigit]

/-- The octal elements of an escape and of what follows it. -/
theorem any_isOctal_of_escaped {c : Char} {rest : List Char} {skip : Nat} {found : List Element}
    (inert : '\\' ∉ ('\\' :: c :: rest).take skip)
    (decoded : elements? style skip ('\\' :: c :: rest) = some found)
    (ih : ∀ {skip others}, '\\' ∉ rest.take skip → elements? style skip rest = some others
      → hasOctalEscape rest = others.any Element.isOctal)
    : found.any Element.isOctal
      = ((c.isDigit && !(c == '0' && !rest.head?.any Char.isDigit)) || hasOctalEscape rest) := by
  obtain rfl : skip = 0 := by
    cases skip with
    | zero => rfl
    | succ skip => simp at inert
  cases escaped : escape? style (c :: rest) with
  | none => simp [elements?, escaped] at decoded
  | some front =>
      obtain ⟨element, length⟩ := front
      obtain ⟨length, rfl⟩ : ∃ before, length = before + 1 :=
        Nat.exists_eq_add_one.mpr (escape?_length_pos escaped)
      rw [elements?_escaped escaped] at decoded
      obtain ⟨others, inner, rfl⟩ := Option.map_eq_some_iff.mp decoded
      have within : '\\' ∉ rest.take length := by
        intro member
        by_cases pair : c = '\r' ∧ rest.head? = some '\n'
        · obtain ⟨rfl, isFeed⟩ := pair
          obtain ⟨after, rfl⟩ := List.head?_eq_some_iff.mp isFeed
          have read : escape? style ('\r' :: '\n' :: after) = some (.continuation, 2) := rfl
          obtain ⟨-, counted⟩ := Prod.mk.inj (Option.some.inj (escaped.symm.trans read))
          obtain rfl := Nat.succ.inj counted
          simp at member
        · have plain := plain_of_escape escaped pair _ member
          cases plain
      rw [List.any_cons, isOctal_of_escape escaped, ih within inner]

/-- A text holds an octal escape exactly if one of its elements is octal. -/
theorem hasOctalEscape_eq_any {text : List Char} {skip : Nat} {found : List Element}
    (inert : '\\' ∉ text.take skip)
    (decoded : elements? style skip text = some found)
    : hasOctalEscape text = found.any Element.isOctal := by
  fun_induction hasOctalEscape text generalizing skip found with
  | case1 => cases skip <;> simp_all [elements?]
  | case2 rest ih =>
      rw [any_isOctal_of_escaped inert decoded ih]
      cases rest.head?.any Char.isDigit <;> rfl
  | case3 c rest notNull ih =>
      have different : (c == '0') = false := beq_false_of_ne notNull
      rw [any_isOctal_of_escaped inert decoded ih, different, Bool.false_and, Bool.not_false,
        Bool.and_true]
  | case4 c rest notNull notEscape ih =>
      cases skip with
      | succ skip =>
          exact ih (fun member => inert (List.mem_cons_of_mem _ member)) decoded
      | zero =>
          by_cases unescaped : c = '\\'
          · cases rest with
            | nil => simp [unescaped, elements?, escape?] at decoded
            | cons first others => exact absurd rfl (notEscape first others unescaped)
          · simp only [elements?, unescaped, if_false] at decoded
            split at decoded <;> obtain ⟨others, inner, rfl⟩ := Option.map_eq_some_iff.mp decoded
            · refine (ih ?_ inner).trans (by simp [Element.isOctal])
              cases rest with
              | nil => simp
              | cons first others => split_ifs with isFeed <;> simp_all
            · exact (ih (by simp) inner).trans (by simp [Element.isOctal])

end ScriptStyle.Literal
