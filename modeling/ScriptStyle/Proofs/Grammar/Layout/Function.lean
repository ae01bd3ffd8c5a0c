import ScriptStyle.Proofs.Grammar.Coverage.Function
import ScriptStyle.Proofs.Grammar.Layout.Scope

/-!
How functions, methods and classes are laid out.
-/

namespace ScriptStyle.Grammar

open ScriptStyle.Grammar.Parser

variable {origin : Scanner} {c m c' : Cursor} {scope : Scope}

/-- No words in front of a name are braces. -/
theorem Modifiers.parse_laid {nameEnds : List String} {modifiers : Modifiers}
    (sound : c.Sound origin) (run : Modifiers.parse nameEnds c = .ok (modifiers, c'))
    : Laid origin c [] c' := by
  simp only [Modifiers.parse, bind_ok, get_ok, pure_ok] at run
  obtain ⟨_, _, ⟨rfl, rfl⟩, _, m, async, _, m', star, _, _, ⟨rfl, rfl⟩, _, _, accessor, -, rfl⟩ := run
  have first := advanceIf_laid sound async fun holds => by
    simp only [Bool.and_eq_true] at holds
    exact Cursor.unbraced_of_sees (by decide) holds.1.1
  have second := eat_laid (by decide) first.sound star
  refine first.trans (second.trans (advanceIf_laid second.sound accessor fun holds => ?_))
  simp only [Bool.and_eq_true, Bool.or_eq_true] at holds
  rcases holds.1.2 with get | set
  · exact Cursor.unbraced_of_sees (by decide) get
  · exact Cursor.unbraced_of_sees (by decide) set

namespace Scope

variable (deeper : scope.deeper.Lays origin)

include deeper

-----------------------------------------------------------------------------------------
-- Functions
-----------------------------------------------------------------------------------------

/-- The marks of its statements leave the body of a function where it is. -/
theorem functionBody_laid {isGenerator : Bool} {block : Block} (sound : c.Sound origin)
    (run : scope.functionBody isGenerator c = .ok (block, c'))
    : Laid origin c [.block block] c'
        ∧ ∀ tokens, c'.Completes origin tokens →
            block.toBody.BracedAt tokens c.index c'.lastIndex := by
  obtain ⟨unmarked, enclosed, rfl⟩ := map_ok.mp run
  have deeper' : (scope.inFunction isGenerator).deeper.Lays origin := deeper
  obtain ⟨laid, braced⟩ := block_laid deeper' sound enclosed
  exact ⟨laid.asBody, fun tokens complete => (Node.toBody_asBody unmarked).symm ▸ braced tokens complete⟩

theorem functionRest_laid {isAsync isGenerator : Bool} {definition : FunctionDef}
    (sound : c.Sound origin)
    (run : scope.functionRest isAsync isGenerator c = .ok (definition, c'))
    : Laid origin c [.function definition] c' := by
  simp only [functionRest, bind_ok, pure_ok] at run
  obtain ⟨params, m, listed, body, m', enclosed, rfl, rfl⟩ := run
  have first := arguments_laid deeper sound listed
  have second := (functionBody_laid deeper first.sound enclosed).1
  have inner : Laid origin c (Node.function ⟨params, body, isAsync, isGenerator⟩).children m' :=
    first.trans second
  exact inner.group rfl

theorem functionDef_laid {definition : FunctionDef} (sound : c.Sound origin)
    (run : scope.functionDef c = .ok (definition, c'))
    : Laid origin c [.function definition] c' := by
  simp only [functionDef, bind_ok, get_ok] at run
  obtain ⟨_, m, async, _, m', word, _, m'', star, _, _, ⟨rfl, rfl⟩, name, m''', named, run⟩ := run
  have first := eat_laid (by decide) sound async
  have second := expect_laid (by decide) first.sound word
  have third := eat_laid (by decide) second.sound star
  have fourth : Laid origin m'' [] m''' := by
    rcases onlyIf_ok.mp named with ⟨-, _, word, -⟩ | ⟨-, -, rfl⟩
    · exact (identifier_skipped third.sound word).1
    · exact .refl third.sound
  have front := first.trans (second.trans (third.trans fourth))
  exact (functionRest_laid deeper front.sound run).after front

theorem propertyKey_laid {key : PropertyKey} (sound : c.Sound origin)
    (run : scope.propertyKey c = .ok (key, c'))
    : Laid origin c [.propertyKey key] c' := by
  simp only [propertyKey, bind_ok, get_ok] at run
  obtain ⟨_, _, ⟨rfl, rfl⟩, run⟩ := run
  cases here : c.peek? with
  | none => simp only [here, endOfInput_ok] at run
  | some token =>
      cases kind : token.kind
        <;> simp only [here, kind, bind_ok, ite_ok, advance_ok, pure_ok, unexpected_ok, and_false,
          or_false] at run
      case punctuator =>
        obtain ⟨opens, _, _, rfl, value, m, inner, _, _, closes, rfl, rfl⟩ := run
        have text : token.text = "[" := beq_iff_eq.mp opens
        have first := sound.advance_laid (Cursor.unbraced_of_text here (by simp [text]))
        have second := assignment_laid deeper first.sound inner
        have third := expect_laid (by decide) second.sound closes
        have inner : Laid origin c (Node.propertyKey (.computed value)).children _ :=
          (second.after first).skip third
        exact inner.group rfl
      all_goals
        obtain ⟨_, _, rfl, rfl, rfl⟩ := run
        exact sound.leaf_laid here (by simp [kind]) rfl rfl rfl rfl rfl

-----------------------------------------------------------------------------------------
-- Classes
-----------------------------------------------------------------------------------------

/-- The form of a class member is laid out from a cursor on. -/
structure MemberFormLaid (origin : Scanner) (c : Cursor) (form : Extent → ClassMember) (c' : Cursor)
    : Prop where
  laid : ∀ extent, Laid origin c (Node.classMember (form extent)).children c'
  extent : ∀ extent, (form extent).extent = extent

theorem memberDefinition_laid {isStatic : Bool} {form : Extent → ClassMember}
    (sound : c.Sound origin) (run : scope.memberDefinition isStatic c = .ok (form, c'))
    : MemberFormLaid origin c form c' := by
  simp only [memberDefinition, bind_ok, get_ok, ite_ok, pure_ok, unexpected_ok, and_false,
    false_or] at run
  obtain ⟨modifiers, m, words, key, m', named, _, _, ⟨rfl, rfl⟩, run⟩ := run
  have first := Modifiers.parse_laid sound words
  have second := (propertyKey_laid deeper first.sound named).after first
  rcases run with ⟨-, definition, _, rest, rfl, rfl⟩ | ⟨-, -, value, m'', init, _, ended, ends, rfl, rfl⟩
  · exact ⟨fun _ => second.trans (functionRest_laid deeper second.sound rest), fun _ => rfl⟩
  · have third := after?_laid (assignment_laid deeper) (by decide) second.sound init
    have fourth := consumeSemicolon_laid third.sound ends
    exact ⟨fun _ => second.trans (third.skip fourth), fun _ => rfl⟩

theorem memberForm_laid {form : Extent → ClassMember} (sound : c.Sound origin)
    (run : scope.memberForm c = .ok (form, c'))
    : MemberFormLaid origin c form c' := by
  simp only [memberForm, bind_ok, get_ok, ite_ok, pure_ok, advance_ok] at run
  obtain ⟨eaten, m, semicolon, run⟩ := run
  have first := eat_laid (by decide) sound semicolon
  rcases run with ⟨-, rfl, rfl⟩ | ⟨-, _, _, ⟨rfl, rfl⟩, run⟩
  · exact ⟨fun _ => first, fun _ => rfl⟩
  · rcases run with ⟨static, _, _, rfl, block, _, enclosed, rfl, rfl⟩ | ⟨-, _, m', static, run⟩
    · simp only [Bool.and_eq_true] at static
      have second := first.sound.advance_laid (Cursor.unbraced_of_sees (by decide) static.1)
      have front := first.trans second
      exact ⟨fun _ => (block_laid deeper front.sound enclosed).1.after front, fun _ => rfl⟩
    · have second := advanceIf_laid first.sound static fun holds => by
        simp only [Bool.and_eq_true] at holds
        exact Cursor.unbraced_of_sees (by decide) holds.1
      have front := first.trans second
      obtain ⟨third, extent⟩ := memberDefinition_laid deeper front.sound run
      exact ⟨fun extent => (third extent).after front, extent⟩

theorem classMember_laid {member : ClassMember} (sound : c.Sound origin)
    (run : scope.classMember c = .ok (member, c'))
    : ElementLaid origin c (.classMember member) member.extent c' := by
  obtain ⟨covered, rises⟩ := classMember_read deeper.toCovers sound run
  simp only [classMember, bind_ok, get_ok, start_ok, extentFrom_ok, pure_ok] at run
  obtain ⟨_, _, ⟨rfl, rfl⟩, _, _, ⟨token, here, rfl, rfl⟩, form, m, run, _, _, ⟨rfl, rfl⟩, rfl, rfl⟩ :=
    run
  obtain ⟨laid, extent⟩ := memberForm_laid deeper sound run
  refine (laid _).element (covered .program).toLedger sound rises ?_ rfl rfl rfl rfl
  rw [extent, ← Cursor.Sound.offset_eq here, Nat.max_eq_left (Nat.le_of_lt rises)]

theorem classDef_laid {definition : ClassDef} (sound : c.Sound origin)
    (run : scope.classDef c = .ok (definition, c'))
    : Laid origin c [.class definition] c' := by
  simp only [classDef, bind_ok, get_ok, start_ok, spanFrom_ok, pure_ok, expect_ok] at run
  obtain ⟨_, _, ⟨word, rfl⟩, _, _, ⟨rfl, rfl⟩, _, m, named, superClass, m', heritage, _, _,
    ⟨token, here, rfl, rfl⟩, _, _, ⟨opens, rfl⟩, members, m'', listed, _, _, ⟨rfl, rfl⟩, rfl, rfl⟩ :=
    run
  have first := sound.advance_laid (Cursor.unbraced_of_sees (by decide) word)
  have second := advanceIf_laid first.sound named fun holds => by
    simp only [Bool.and_eq_true, Cursor.atKind, Option.any_eq_true] at holds
    obtain ⟨⟨token, here, kind⟩, -⟩ := holds
    exact Cursor.unbraced_of_kind here (by simp [beq_iff_eq.mp kind])
  have third := after?_laid deeper.heritage_laid (by decide) second.sound heritage
  obtain ⟨fourth, taken, braced⟩ := bracedElements_laid
    (fun sound run => (classMember_read deeper.toCovers sound run).1 .program)
    (fun sound run => (classMember_read deeper.toCovers sound run).2) (classMember_laid deeper)
    third.sound opens listed
  have front := first.trans (second.trans third)
  rw [← Cursor.Sound.offset_eq here, Nat.max_eq_left (Nat.le_of_lt taken)]
  have inner : Laid origin c
      (Node.class ⟨superClass, members, ⟨m'.offset, m''.lastStop⟩⟩).children m'' :=
    front.trans fourth
  refine inner.around (by simp) (by simp [Node.span?]) ?_ (by simp [Node.extent?]) ?_
  · intro span member
    obtain rfl := List.mem_singleton.mp member
    exact Span.encloses_iff.mpr ⟨front.offset_le, Nat.le_refl _⟩
  · rintro tokens complete _ ⟨⟩
    exact ⟨_, _, braced tokens complete⟩

end Scope

end ScriptStyle.Grammar
