import ScriptStyle.Proofs.Grammar.Coverage.Operand
import ScriptStyle.Proofs.Grammar.Layout.Function

/-!
How operands are laid out: literals, names, and brackets of all kinds.
-/

namespace ScriptStyle.Grammar

open ScriptStyle.Grammar.Parser

variable {origin : Scanner} {c m c' : Cursor} {scope : Scope}

namespace Scope

-----------------------------------------------------------------------------------------
-- Templates
-----------------------------------------------------------------------------------------

theorem templatePiece_laid {found : Span × Bool} (sound : c.Sound origin)
    (run : templatePiece c = .ok (found, c'))
    : Laid origin c [] c' := by
  simp only [templatePiece, bind_ok, get_ok] at run
  obtain ⟨_, _, ⟨rfl, rfl⟩, run⟩ := run
  cases here : c.peek? with
  | none => simp only [here, unexpected_ok] at run
  | some token =>
      simp only [here, bind_ok, ite_ok, advance_ok, pure_ok, unexpected_ok, and_false, or_false,
        beq_iff_eq] at run
      rcases run with ⟨kind, _, _, rfl, -, rfl⟩ | ⟨-, kind, _, _, rfl, -, rfl⟩
      all_goals exact sound.advance_laid (Cursor.unbraced_of_kind here (by simp [kind]))

variable (deeper : scope.deeper.Lays origin)

include deeper

theorem substitution_laid {found : Round (Expression × Span)} (sound : c.Sound origin)
    (run : scope.substitution c = .ok (found, c'))
    : Laid origin c (found.made fun item => [.expression item.1]) c' := by
  simp only [substitution, bind_ok, pure_ok] at run
  obtain ⟨value, m, valued, ⟨piece, more⟩, m', pieced, rfl, rfl⟩ := run
  have first := expression_laid deeper sound valued
  have second := first.skip (templatePiece_laid first.sound pieced)
  cases more <;> exact second

/-- A template literal is laid out with its substitutions, and its text lies in it. -/
theorem templateLiteral_laid {isTagged : Bool} {literal : TemplateLiteral} {head : Token}
    (sound : c.Sound origin) (here : c.peek? = some head)
    (kind : head.kind = .template ∨ head.kind = .templateHead)
    (run : scope.templateLiteral isTagged c = .ok (literal, c'))
    : Laid origin c [.template literal] c' := by
  obtain ⟨held, span, -⟩ :=
    templateLiteral_held deeper.toCovers sound here kind run .expression
  have inner : Laid origin c (Node.template literal).children c' := by
    have first := sound.advance_laid (Cursor.unbraced_of_kind here (by
      rcases kind with kind | kind <;> simp [kind]))
    simp only [templateLiteral, bind_ok, start_ok, get_ok] at run
    obtain ⟨_, _, ⟨_, found, rfl, rfl⟩, _, _, ⟨rfl, rfl⟩, run⟩ := run
    simp only [here, bind_ok, ite_ok, advance_ok, spanFrom_ok, pure_ok] at run
    obtain ⟨_, _, rfl, ⟨-, _, _, ⟨-, rfl⟩, rfl, rfl⟩ | ⟨-, others, m, repeated, _, _, ⟨-, rfl⟩, rfl,
      rfl⟩⟩ := run
    · exact first
    · have rounds := rounds_ok (substitution_covers deeper.toCovers) first.sound repeated
      have second := (rounds.laid (substitution_laid deeper) first.sound).after first
      rw [← List.map_eq_flatMap] at second
      simpa only [Node.children, List.map_map, Function.comp_def] using second
  have quoted : literal.Quoted := by
    refine (held.grounded _ (Cursor.Completes.behind held.sound) (.template literal .expression)
      ?_).template literal .expression rfl
    obtain ⟨_, _, _, _⟩ := literal
    rw [TemplateLiteral.shown]
    exact List.mem_cons_self ..
  refine inner.around (by simp) (fun found same => ?_) (fun quasi member => ?_) (by simp [Node.extent?])
    (by simp [Node.body?])
  · obtain rfl := Option.some.inj same
    exact span
  · obtain ⟨start, -, stop⟩ := quoted.inside quasi member
    rw [← span]
    exact Span.encloses_iff.mpr ⟨start, stop⟩

-----------------------------------------------------------------------------------------
-- Arrays and objects
-----------------------------------------------------------------------------------------

theorem arrayElement_laid {element : Option Expression} (sound : c.Sound origin)
    (run : scope.arrayElement c = .ok (element, c'))
    : Laid origin c (element.toList.map .expression) c' := by
  simp only [arrayElement, bind_ok, get_ok, ite_ok, pure_ok] at run
  obtain ⟨_, m, comma, run⟩ := run
  have first := eat_laid (by decide) sound comma
  rcases run with ⟨-, rfl, rfl⟩ | ⟨-, value, m', run, _, _, ⟨rfl, rfl⟩, last⟩
  · exact first
  · have second := (spreadOrAssignment_laid deeper first.sound run).after first
    rcases last with ⟨-, _, _, comma, rfl, rfl⟩ | ⟨-, rfl, rfl⟩
    · exact second.skip (expect_laid (by decide) second.sound comma)
    · exact second

theorem arrayElements_laid {elements : List (Option Expression)} (sound : c.Sound origin)
    (unbraced : c.Unbraced) (run : scope.arrayElements c = .ok (elements, c'))
    : Laid origin c (elements.filterMap (·.map .expression)) c' := by
  simp only [arrayElements, bind_ok, advance_ok] at run
  obtain ⟨_, _, rfl, run⟩ := run
  have first := sound.advance_laid unbraced
  obtain ⟨m, rounds, closes, rfl⟩ := itemsUntil_rounds
    (fun sound run => (arrayElement_held deeper.toCovers sound run).1.toCovered)
    (fun sound run => (arrayElement_held deeper.toCovers sound run).2) first.sound run
  have second := rounds.laid (unlessClosed_laid (more_laid (arrayElement_laid deeper))) first.sound
  have listed : elements.flatMap (fun element => element.toList.map Node.expression)
      = elements.filterMap (·.map .expression) := by
    rw [List.filterMap_eq_flatMap_toList]
    congr
    funext element
    cases element <;> rfl
  rw [listed] at second
  exact (second.after first).skip
    (second.sound.advance_laid (Cursor.unbraced_of_sees (by decide) closes))

theorem property_laid {entry : Property} (sound : c.Sound origin)
    (run : scope.property c = .ok (entry, c'))
    : Laid origin c [.property entry] c' := by
  simp only [property, bind_ok, get_ok, ite_ok, pure_ok, unexpected_ok, and_false, false_or] at run
  obtain ⟨_, m, dots, run⟩ := run
  have first := eat_laid (by decide) sound dots
  rcases run with ⟨-, value, _, run, rfl, rfl⟩ | ⟨-, modifiers, m₁, words, key, m₂, named, _, _,
    ⟨rfl, rfl⟩, run⟩
  · have inner : Laid origin c (Node.property (.spread value)).children _ :=
      (assignment_laid deeper first.sound run).after first
    exact inner.group rfl
  · have second := first.trans (Modifiers.parse_laid first.sound words)
    have third := (propertyKey_laid deeper second.sound named).after second
    rcases run with ⟨-, definition, _, rest, rfl, rfl⟩ | ⟨-, -, _, m₃, colon, run⟩
    · have inner : Laid origin c (Node.property (.method key definition)).children _ :=
        third.trans (functionRest_laid deeper third.sound rest)
      exact inner.group rfl
    · have fourth := third.skip (eat_laid (by decide) third.sound colon)
      rcases run with ⟨-, value, _, run, rfl, rfl⟩ | ⟨-, run⟩
      · have inner : Laid origin c (Node.property (.keyValue key value)).children _ :=
          fourth.trans (assignment_laid deeper fourth.sound run)
        exact inner.group rfl
      · cases key <;> simp only [bind_ok, pure_ok, unexpected_ok] at run
        case identifier name =>
        obtain ⟨default, m₄, init, rfl, rfl⟩ := run
        have onward := after?_laid (assignment_laid deeper) (by decide) fourth.sound init
        have inner : Laid origin c (Node.property (.shorthand name default)).children m₄ :=
          onward.after (fourth.forget rfl)
        refine inner.around (by simp) (by simp [Node.span?]) (fun span member => ?_) (by simp [Node.extent?])
          (by simp [Node.body?])
        -- The name was read as a key, which lies where it was read.
        obtain rfl := List.mem_singleton.mp member
        have fits := fourth.fits _ (.behind fourth.sound) _ (List.mem_singleton_self _)
        exact Span.encloses_trans ((Moves.refl sound).encloses onward.toMoves) (fits.own rfl)

theorem properties_laid {entries : List Property} (sound : c.Sound origin) (opens : c.sees "\x7b")
    (run : scope.properties c = .ok (entries, c'))
    : Laid origin c (entries.map .property) c' := by
  simp only [properties, bind_ok, advance_ok] at run
  obtain ⟨_, _, rfl, run⟩ := run
  exact bracedList_laid (fun sound run => (property_held deeper.toCovers sound run).toCovered)
    (property_laid deeper) sound opens run

-----------------------------------------------------------------------------------------
-- Operands
-----------------------------------------------------------------------------------------

/-- An expression form is laid out: with any span it is an operand around what is laid out. -/
structure OperandFormLaid (origin : Scanner) (c : Cursor) (form : Span → Expression) (c' : Cursor)
    : Prop where
  laid : ∀ span, Laid origin c (Node.ofExpression (form span)) c'
  simple : ∀ span, Node.isSimple (form span)

theorem wordOperand_laid {token : Token} {word : String} {form : Span → Expression}
    (sound : c.Sound origin) (here : c.peek? = some token) (kind : token.kind = .identifier)
    (run : scope.wordOperand word c = .ok (form, c'))
    : OperandFormLaid origin c form c' := by
  have first := sound.advance_laid (Cursor.unbraced_of_kind here (by simp [kind]))
  simp only [wordOperand, bind_ok, get_ok] at run
  obtain ⟨_, _, ⟨rfl, rfl⟩, run⟩ := run
  split at run
  case h_1 =>
    obtain ⟨definition, defined, rfl⟩ := map_ok.mp run
    exact ⟨fun _ => functionDef_laid deeper sound defined, fun _ => rfl⟩
  case h_2 =>
    obtain ⟨definition, defined, rfl⟩ := map_ok.mp run
    exact ⟨fun _ => classDef_laid deeper sound defined, fun _ => rfl⟩
  case h_3 =>
    simp only [bind_ok, advance_ok, ite_ok, pure_ok, map_ok] at run
    obtain ⟨_, _, rfl, _, m, dot, run⟩ := run
    have second := first.trans (eat_laid (by decide) first.sound dot)
    rcases run with ⟨-, _, _, named, rfl, rfl⟩ | ⟨-, arguments, listed, rfl⟩
    · exact ⟨fun _ => second.trans (identifier_skipped second.sound named).1, fun _ => rfl⟩
    · exact ⟨fun _ => (arguments_laid deeper second.sound listed).after second, fun _ => rfl⟩
  case h_4 | h_5 | h_6 | h_7 | h_8 =>
    simp only [bind_ok, advance_ok, pure_ok] at run
    obtain ⟨_, _, rfl, rfl, rfl⟩ := run
    exact ⟨fun _ => first, fun _ => rfl⟩
  case h_9 =>
    simp only [bind_ok, advance_ok, ite_ok, pure_ok, map_ok] at run
    rcases run with ⟨-, definition, defined, rfl⟩ | ⟨-, _, _, rfl, rfl, rfl⟩
    · exact ⟨fun _ => functionDef_laid deeper sound defined, fun _ => rfl⟩
    · exact ⟨fun _ => first, fun _ => rfl⟩

theorem punctuatorOperand_laid {token : Token} {form : Span → Expression}
    (sound : c.Sound origin) (here : c.peek? = some token) (kind : token.kind = .punctuator)
    (run : scope.punctuatorOperand token.text c = .ok (form, c'))
    : OperandFormLaid origin c form c' := by
  simp only [punctuatorOperand] at run
  generalize text : token.text = opening at run
  split at run
  case h_1 =>
    simp only [bind_ok, advance_ok, pure_ok] at run
    obtain ⟨_, _, rfl, inner, m, read, _, _, closes, rfl, rfl⟩ := run
    have first := sound.advance_laid (Cursor.unbraced_of_text here (by simp [text]))
    have second := (expression_laid deeper first.sound read).after first
    exact ⟨fun _ => second.skip (expect_laid (by decide) second.sound closes), fun _ => rfl⟩
  case h_2 =>
    obtain ⟨elements, listed, rfl⟩ := map_ok.mp run
    have unbraced := Cursor.unbraced_of_text here (by simp [text])
    exact ⟨fun _ => arrayElements_laid deeper sound unbraced listed, fun _ => rfl⟩
  case h_3 =>
    obtain ⟨entries, listed, rfl⟩ := map_ok.mp run
    have opens : c.sees "\x7b" :=
      Cursor.sees_of_isPunctuator here (by simp [Token.isPunctuator, kind, text])
    exact ⟨fun _ => properties_laid deeper sound opens listed, fun _ => rfl⟩
  case h_4 => simp only [unexpected_ok] at run

theorem operandForm_laid {token : Token} {form : Span → Expression} (sound : c.Sound origin)
    (here : c.peek? = some token) (run : scope.operandForm token c = .ok (form, c'))
    : OperandFormLaid origin c form c' := by
  simp only [operandForm] at run
  cases kind : token.kind
    <;> simp only [kind, bind_ok, advance_ok, pure_ok, unexpected_ok] at run
  case identifier => exact wordOperand_laid deeper sound here kind run
  case punctuator => exact punctuatorOperand_laid deeper sound here kind run
  case template | templateHead =>
    obtain ⟨literal, read, rfl⟩ := map_ok.mp run
    exact ⟨fun _ => templateLiteral_laid deeper sound here (by simp [kind]) read, fun _ => rfl⟩
  all_goals
    obtain ⟨_, _, rfl, rfl, rfl⟩ := run
    exact ⟨fun _ => sound.advance_laid (Cursor.unbraced_of_kind here (by simp [kind])), fun _ => rfl⟩

theorem operand_laid {e : Expression} (sound : c.Sound origin)
    (run : scope.operand c = .ok (e, c'))
    : Laid origin c [.expression e] c' := by
  have read := operand_read deeper.toCovers sound run
  simp only [operand, bind_ok, start_ok, get_ok] at run
  obtain ⟨_, m, again, _, _, ⟨token, here, rfl, rfl⟩, _, _, ⟨rfl, rfl⟩, run⟩ := run
  have first := rereadAt_laid sound again
  simp only [here, bind_ok, spanFrom_ok, pure_ok] at run
  obtain ⟨form, _, formed, _, _, ⟨rfl, rfl⟩, rfl, rfl⟩ := run
  obtain ⟨laid, simple⟩ := operandForm_laid deeper first.sound here formed
  exact ((laid _).after first).expression read (simple _)

end Scope

end ScriptStyle.Grammar
