import ScriptStyle.Proofs.Grammar.Progress.Basic

/-!
Repetitions in the grammar. A round that another follows takes at least one byte, so that a
repetition ends by itself before the bytes run out that bound it.
-/

namespace ScriptStyle.Grammar

open ScriptStyle.Grammar.Parser

variable {α : Type} {origin : Scanner} {c m c' : Cursor}

-----------------------------------------------------------------------------------------
-- Rounds that take a byte
-----------------------------------------------------------------------------------------

/-- A round of a repetition takes at least one byte if another round follows it. -/
structure Parser.Round.Takes (origin : Scanner) (round : Parser (Round α)) : Prop where
  sound
    : ∀ {c c' : Cursor} {found : Round α}, c.Sound origin → round c = .ok (found, c')
      → c'.Sound origin
  rises
    : ∀ {c c' : Cursor} {found : Round α}, c.Sound origin → round c = .ok (found, c')
      → found.goesOn → c.offset < c'.offset

/-- Parsers that agree where another ends agree behind it. -/
theorem Parser.bind_congr {β : Type} {p : Parser α} {f g : α → Parser β}
    (same : ∀ a m, p c = .ok (a, m) → f a m = g a m)
    : (p >>= f) c = (p >>= g) c := by
  change StateT.bind p f c = StateT.bind p g c
  cases run : p c with
  | error fault => simp [StateT.bind, bind, Except.bind, run]
  | ok result => simp [StateT.bind, bind, Except.bind, run, same]

namespace Parser.Round.Takes

variable {round : Parser (Round α)}

theorem of_covers {one : α → List Shown} (each : Round.Covers origin round one)
    : Takes origin round where
  sound sound run := (each.covered sound run).sound
  rises sound run goesOn :=
    Nat.lt_of_lt_of_le (each.rises sound run goesOn)
      (each.covered sound run).sound.lastStop_le_offset.1

theorem of_read {item : Parser α} {closing : String} {shown : α → List Shown}
    (each : ∀ {c c' : Cursor} {found : α}, c.Sound origin → item c = .ok (found, c')
      → Covered origin c (shown found) c' ∧ c.offset < c'.lastStop)
    : Takes origin (unlessClosed closing (Round.more <$> item)) :=
  of_covers (untilClose_covers (fun sound run => (each sound run).1)
    fun sound run => (each sound run).2)

/-- Once the bytes that remain are fewer than the rounds that are allowed, allowing more changes
nothing. -/
theorem roundsUpTo_eq (takes : Takes origin round) {first second : Nat} (sound : c.Sound origin)
    (enough : c.remaining < first) (enough' : c.remaining < second)
    : roundsUpTo round first c = roundsUpTo round second c := by
  induction first generalizing second c with
  | zero => omega
  | succ first ih =>
      obtain ⟨second, rfl⟩ : ∃ fewer, second = fewer + 1 := ⟨second - 1, by omega⟩
      refine bind_congr fun found m run => ?_
      cases found with
      | stop | last => rfl
      | more item =>
          have moved := takes.sound sound run
          have fewer := sound.remaining_lt moved (takes.rises sound run rfl)
          have same : roundsUpTo round first m = roundsUpTo round second m :=
            ih moved (by omega) (by omega)
          change StateT.bind _ _ m = StateT.bind _ _ m
          simp only [StateT.bind, same]

end Parser.Round.Takes

theorem Parser.length_roundsUpTo_le {round : Parser (Round α)} {fuel : Nat} {items : List α}
    (run : roundsUpTo round fuel c = .ok (items, c'))
    : items.length ≤ fuel := by
  induction fuel generalizing c items c' with
  | zero =>
      obtain ⟨rfl, -⟩ := pure_ok.mp run
      exact Nat.le_refl _
  | succ fuel ih =>
      obtain ⟨found, m, -, run⟩ := bind_ok.mp run
      cases found with
      | stop =>
          obtain ⟨rfl, -⟩ := pure_ok.mp run
          exact Nat.zero_le _
      | last item =>
          obtain ⟨rfl, -⟩ := pure_ok.mp run
          exact Nat.succ_le_succ (Nat.zero_le _)
      | more item =>
          obtain ⟨others, m', rest, run⟩ := bind_ok.mp run
          obtain ⟨rfl, -⟩ := pure_ok.mp run
          exact Nat.succ_le_succ (ih rest)

-----------------------------------------------------------------------------------------
-- Repetitions of the grammar
-----------------------------------------------------------------------------------------

/-- The rounds of the repetitions in the grammar, in a scope. -/
inductive Scope.Repeats (scope : Scope) : {α : Type} → Parser (Round α) → Prop
  | program : scope.Repeats statementRound
  | statements : scope.Repeats (unlessClosed "\x7d" (Round.more <$> scope.statement))
  | members : scope.Repeats (unlessClosed "\x7d" (Round.more <$> scope.classMember))
  | elements : scope.Repeats (unlessClosed "]" (Round.more <$> scope.arrayElement))
  | switchCases : scope.Repeats (unlessClosed "\x7d" (Round.more <$> scope.switchCase))
  | clause : scope.Repeats scope.clauseRound
  | declarators (allowIn : Bool) : scope.Repeats (itemThenComma (scope.declarator allowIn))
  | expressions (allowIn : Bool) : scope.Repeats (itemThenComma (scope.assignment allowIn))
  | arguments : scope.Repeats (unlessClosed ")" (itemThenComma scope.spreadOrAssignment))
  | properties : scope.Repeats (unlessClosed "\x7d" (itemThenComma scope.property))
  | specifiers : scope.Repeats (unlessClosed "\x7d" (itemThenComma specifier))
  | attributes : scope.Repeats (unlessClosed "\x7d" (itemThenComma importAttribute))
  | substitutions : scope.Repeats scope.substitution
  | suffixes (allowCall : Bool) : scope.Repeats (scope.suffixRound allowCall)
  | operations (allowIn : Bool) : scope.Repeats (scope.operation allowIn)

theorem Scope.Repeats.takes {scope : Scope} {round : Parser (Round α)} (repeats : scope.Repeats round)
    (deeper : scope.deeper.Covers origin)
    : Round.Takes origin round := by
  cases repeats with
  | program => exact .of_covers statementRound_covers
  | statements =>
      exact .of_read fun sound run =>
        ⟨(statement_read deeper sound run).covered .program, (statement_read deeper sound run).rises⟩
  | members =>
      exact .of_read fun sound run =>
        ⟨(classMember_read deeper sound run).1 default, (classMember_read deeper sound run).2⟩
  | elements =>
      exact .of_read fun sound run =>
        ⟨(arrayElement_held deeper sound run).1.toCovered, (arrayElement_held deeper sound run).2⟩
  | switchCases => exact .of_read fun sound run => switchCase_covered deeper sound run
  | clause => exact .of_covers (clauseRound_covers deeper)
  | declarators allowIn =>
      exact .of_covers (itemThenComma_covers fun sound run =>
        (declarator_held deeper sound run).1.toCovered)
  | expressions allowIn =>
      exact .of_covers (itemThenComma_covers fun sound run =>
        (assignment_read deeper sound run).toCovered)
  | arguments =>
      exact .of_covers (unlessClosed_covers (itemThenComma_covers fun sound run =>
        (spreadOrAssignment_read deeper sound run).toCovered))
  | properties =>
      exact .of_covers (unlessClosed_covers (itemThenComma_covers fun sound run =>
        (property_held deeper sound run).toCovered))
  | specifiers =>
      exact .of_covers (unlessClosed_covers (itemThenComma_covers fun sound run =>
        (specifier_held sound run).toCovered))
  | attributes =>
      exact .of_covers (unlessClosed_covers (itemThenComma_covers fun sound run =>
        (importAttribute_held sound run).toCovered))
  | substitutions => exact .of_covers (substitution_covers deeper)
  | suffixes allowCall => exact .of_covers (suffixRound_covers deeper allowCall)
  | operations allowIn => exact .of_covers (operation_covers deeper allowIn)

end ScriptStyle.Grammar
