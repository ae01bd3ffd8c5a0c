import ScriptStyle.Proofs.Grammar.Coverage.Scope
import ScriptStyle.Proofs.Grammar.Layout.Construct

/-!
How the constructs that all others are made of are laid out: expressions with commas, spreads,
arguments and blocks.
-/

namespace ScriptStyle.Grammar

open ScriptStyle.Grammar.Parser

variable {origin : Scanner} {c m c' : Cursor} {scope : Scope}

namespace Scope

/-- An identifier takes a word, with which no braces come. -/
theorem identifier_skipped {e : Expression} (sound : c.Sound origin)
    (run : identifier c = .ok (e, c'))
    : Laid origin c [] c' ∧ ∃ span, e = .identifier span := by
  simp only [identifier, bind_ok, get_ok] at run
  obtain ⟨_, _, ⟨rfl, rfl⟩, run⟩ := run
  cases here : c.peek? with
  | none => simp only [here, unexpected_ok] at run
  | some token =>
      simp only [here, ite_ok, bind_ok, advance_ok, pure_ok, unexpected_ok, and_false, or_false,
        beq_iff_eq] at run
      obtain ⟨kind, _, _, rfl, rfl, rfl⟩ := run
      exact ⟨sound.advance_laid (Cursor.unbraced_of_kind here (by simp [kind])), _, rfl⟩

theorem identifier_laid {e : Expression} (sound : c.Sound origin)
    (run : identifier c = .ok (e, c'))
    : Laid origin c [.expression e] c' := by
  have read := (identifier_read sound run).1
  obtain ⟨inner, span, rfl⟩ := identifier_skipped sound run
  exact inner.expression read rfl

variable (deeper : scope.deeper.Lays origin)

include deeper

theorem assignment_laid {allowIn : Bool} {e : Expression} (sound : c.Sound origin)
    (run : scope.assignment allowIn c = .ok (e, c'))
    : Laid origin c [.expression e] c' :=
  deeper.assignment_laid sound run

theorem statement_laid {s : Statement} (sound : c.Sound origin)
    (run : scope.statement c = .ok (s, c'))
    : ElementLaid origin c (.statement s) s.extent c' :=
  deeper.statement_laid sound run

theorem expression_laid {allowIn : Bool} {e : Expression} (sound : c.Sound origin)
    (run : scope.expression allowIn c = .ok (e, c'))
    : Laid origin c [.expression e] c' := by
  have read := expression_read deeper.toCovers sound run
  simp only [expression, bind_ok, start_ok] at run
  obtain ⟨_, _, ⟨token, here, rfl, rfl⟩, items, m, separated, run⟩ := run
  have inner : Laid origin c (items.map .expression) m :=
    commaSeparated_laid (fun sound run => (assignment_read deeper.toCovers sound run).toCovered)
      (assignment_laid deeper) sound separated
  split at run
  · obtain ⟨rfl, rfl⟩ := pure_ok.mp run
    exact inner
  · simp only [bind_ok, spanFrom_ok, pure_ok] at run
    obtain ⟨_, _, ⟨rfl, rfl⟩, rfl, rfl⟩ := run
    exact inner.expression read rfl

theorem parenthesized_laid {e : Expression} (sound : c.Sound origin)
    (run : scope.parenthesized c = .ok (e, c'))
    : Laid origin c [.expression e] c' := by
  simp only [parenthesized, bind_ok, pure_ok] at run
  obtain ⟨_, m, opens, value, m', run, _, _, closes, rfl, rfl⟩ := run
  have first := expect_laid (by decide) sound opens
  have second := expression_laid deeper first.sound run
  exact (second.after first).skip (expect_laid (by decide) second.sound closes)

theorem spreadOrAssignment_laid {e : Expression} (sound : c.Sound origin)
    (run : scope.spreadOrAssignment c = .ok (e, c'))
    : Laid origin c [.expression e] c' := by
  have read := spreadOrAssignment_read deeper.toCovers sound run
  simp only [spreadOrAssignment, bind_ok, get_ok, ite_ok, start_ok, advance_ok, spanFrom_ok,
    pure_ok] at run
  obtain ⟨_, _, ⟨rfl, rfl⟩, ⟨dots, _, _, ⟨token, here, rfl, rfl⟩, _, _, rfl, operand, m, run, _, _,
    ⟨rfl, rfl⟩, rfl, rfl⟩ | ⟨-, run⟩⟩ := run
  · have first := sound.advance_laid (Cursor.unbraced_of_sees (by decide) dots)
    have inner := (assignment_laid deeper first.sound run).after first
    exact inner.expression read rfl
  · exact assignment_laid deeper sound run

theorem arguments_laid {items : List Expression} (sound : c.Sound origin)
    (run : scope.arguments c = .ok (items, c'))
    : Laid origin c (items.map .expression) c' := by
  simp only [arguments, bind_ok] at run
  obtain ⟨_, m, opens, run⟩ := run
  have first := expect_laid (by decide) sound opens
  obtain ⟨m', second, closes, rfl⟩ := commaListUntil_laid
    (fun sound run => (spreadOrAssignment_read deeper.toCovers sound run).toCovered)
    (spreadOrAssignment_laid deeper) first.sound run
  exact (second.after first).skip
    (second.sound.advance_laid (Cursor.unbraced_of_sees (by decide) closes))

/-- A block is laid out with its statements, and ends with the brace that matches its first. -/
theorem block_laid {block : Block} (sound : c.Sound origin)
    (run : scope.block c = .ok (block, c'))
    : Laid origin c [.block block] c'
        ∧ ∀ tokens, c'.Completes origin tokens →
            block.toBody.BracedAt tokens c.index c'.lastIndex := by
  simp only [Scope.block, bind_ok, start_ok, spanFrom_ok, pure_ok, expect_ok] at run
  obtain ⟨_, _, ⟨token, here, rfl, rfl⟩, _, _, ⟨opens, rfl⟩, body, m, run, _, _, ⟨rfl, rfl⟩, rfl,
    rfl⟩ := run
  obtain ⟨inner, taken, braced⟩ := bracedElements_laid
    (fun sound run => (statement_read deeper.toCovers sound run).covered .program)
    (fun sound run => (statement_read deeper.toCovers sound run).rises)
    (statement_laid deeper) sound opens run
  rw [← Cursor.Sound.offset_eq here, Nat.max_eq_left (Nat.le_of_lt taken)]
  have laid : Laid origin c (Node.block ⟨body, ⟨c.offset, m.lastStop⟩⟩).children m := inner
  refine ⟨laid.around (by simp) (fun span same => (Option.some.inj same).symm) (by simp [Node.heldSpans])
    (by simp [Node.extent?]) ?_, braced⟩
  rintro tokens complete _ ⟨⟩
  exact ⟨_, _, braced tokens complete⟩

end Scope

end ScriptStyle.Grammar
