import ScriptStyle.Proofs.Grammar.Coverage.Scope
import ScriptStyle.Proofs.Tree.Marks

/-!
Coverage by functions, methods and classes.
-/

namespace ScriptStyle.Grammar

open ScriptStyle.Grammar.Parser

variable {origin : Scanner} {c m c' : Cursor} {scope : Scope}

/-- Words in front of a name show nothing. -/
theorem Modifiers.parse_held {nameEnds : List String} {modifiers : Modifiers}
    (sound : c.Sound origin) (run : Modifiers.parse nameEnds c = .ok (modifiers, c'))
    : Held origin c [] c' := by
  simp only [Modifiers.parse, bind_ok, get_ok, pure_ok] at run
  obtain ⟨_, _, ⟨rfl, rfl⟩, _, m, async, _, m', star, _, _, ⟨rfl, rfl⟩, _, _, accessor, -, rfl⟩ := run
  have first := advanceIf_held sound async fun holds => by
    simp only [Bool.and_eq_true] at holds
    exact Cursor.plain_of_sees (by decide) holds.1.1
  have second := (eat_held (by decide) first.sound star).1
  refine first.trans (second.trans (advanceIf_held second.sound accessor fun holds => ?_))
  simp only [Bool.and_eq_true, Bool.or_eq_true] at holds
  rcases holds.1.2 with get | set
  · exact Cursor.plain_of_sees (by decide) get
  · exact Cursor.plain_of_sees (by decide) set

namespace Scope

variable (deeper : scope.deeper.Covers origin)

include deeper

-----------------------------------------------------------------------------------------
-- Functions
-----------------------------------------------------------------------------------------

/-- The marks of its statements change nothing in what the body of a function covers. -/
theorem functionBody_held {isGenerator : Bool} {block : Block} (sound : c.Sound origin)
    (run : scope.functionBody isGenerator c = .ok (block, c'))
    : Held origin c block.shown c' ∧ c.offset < c'.lastStop := by
  obtain ⟨unmarked, enclosed, rfl⟩ := map_ok.mp run
  have deeper' : (scope.inFunction isGenerator).deeper.Covers origin := deeper
  obtain ⟨held, rises⟩ := block_held deeper' sound enclosed
  exact ⟨held.congr unmarked.shown_asBody, rises⟩

theorem functionRest_held {isAsync isGenerator : Bool} {definition : FunctionDef}
    (sound : c.Sound origin)
    (run : scope.functionRest isAsync isGenerator c = .ok (definition, c'))
    : Held origin c definition.shown c' ∧ c.offset < c'.lastStop := by
  simp only [functionRest, bind_ok, pure_ok] at run
  obtain ⟨params, m, listed, body, m', enclosed, rfl, rfl⟩ := run
  obtain ⟨first, rises⟩ := arguments_held deeper sound listed
  obtain ⟨second, -⟩ := functionBody_held deeper first.sound enclosed
  rw [FunctionDef.shown]
  exact ⟨first.trans second, Nat.lt_of_lt_of_le rises second.lastStop_le⟩

theorem functionDef_held {definition : FunctionDef} (sound : c.Sound origin)
    (run : scope.functionDef c = .ok (definition, c'))
    : Held origin c definition.shown c' ∧ c.offset < c'.lastStop := by
  simp only [functionDef, bind_ok, get_ok] at run
  obtain ⟨_, m, async, _, m', word, _, m'', star, _, _, ⟨rfl, rfl⟩, name, m''', named, run⟩ := run
  have first := (eat_held (by decide) sound async).1
  obtain ⟨second, rises⟩ := expect_held (by decide) first.sound word
  have third := (eat_held (by decide) second.sound star).1
  have fourth : Held origin m'' [] m''' := by
    rcases onlyIf_ok.mp named with ⟨-, _, word, -⟩ | ⟨-, -, rfl⟩
    · exact identifier_held third.sound word
    · exact .refl third.sound
  obtain ⟨held, -⟩ := functionRest_held deeper fourth.sound run
  refine ⟨first.trans (second.trans (third.trans (fourth.trans held))), ?_⟩
  have onward := first.offset_le
  have later := third.lastStop_le.trans (fourth.lastStop_le.trans held.lastStop_le)
  omega

theorem propertyKey_held {key : PropertyKey} (sound : c.Sound origin)
    (run : scope.propertyKey c = .ok (key, c'))
    : Held origin c key.shown c' ∧ c.offset < c'.lastStop := by
  simp only [propertyKey, bind_ok, get_ok] at run
  obtain ⟨_, _, ⟨rfl, rfl⟩, run⟩ := run
  cases here : c.peek? with
  | none => simp only [here, endOfInput_ok] at run
  | some token =>
      have rises := (sound.offset_lt_advance here).1
      cases kind : token.kind
        <;> simp only [here, kind, bind_ok, ite_ok, advance_ok, pure_ok, unexpected_ok, and_false,
          or_false] at run
      case string =>
        obtain ⟨_, _, rfl, rfl, rfl⟩ := run
        exact ⟨sound.string_held here kind .propertyKey, rises⟩
      case punctuator =>
        obtain ⟨opens, _, _, rfl, value, m, inner, _, _, closes, rfl, rfl⟩ := run
        have text : token.text = "[" := beq_iff_eq.mp opens
        have before := sound.advance_held
          (Cursor.plain_of_punctuator here kind (by simp [text]) (by simp [text]))
        have read := assignment_read deeper before.sound inner
        have after := (expect_held (by decide) read.sound closes).1
        exact ⟨before.trans (read.skip after),
          Nat.lt_of_lt_of_le rises (read.lastStop_le.trans after.lastStop_le)⟩
      all_goals
        obtain ⟨_, _, rfl, rfl, rfl⟩ := run
        exact ⟨sound.advance_held (Cursor.plain_of_kind here (by simp [kind, TokenKind.isPlain])), rises⟩

-----------------------------------------------------------------------------------------
-- Classes
-----------------------------------------------------------------------------------------

theorem memberDefinition_read {isStatic : Bool} {form : Extent → ClassMember} (beginning : Cursor)
    (sound : c.Sound origin) (run : scope.memberDefinition isStatic c = .ok (form, c'))
    : MemberFormRead origin beginning c form c' := by
  simp only [memberDefinition, bind_ok, get_ok, ite_ok, pure_ok, unexpected_ok, and_false,
    false_or] at run
  obtain ⟨modifiers, m, words, key, m', named, _, _, ⟨rfl, rfl⟩, run⟩ := run
  have first := Modifiers.parse_held sound words
  obtain ⟨second, rises⟩ := propertyKey_held deeper first.sound named
  have onward := first.offset_le
  rcases run with ⟨-, definition, _, rest, rfl, rfl⟩ | ⟨-, -, value, m'', init, _, ended, ends, rfl, same⟩
  · obtain ⟨third, -⟩ := functionRest_held deeper second.sound rest
    have held := first.trans (second.trans third)
    refine ⟨fun extent _ _ enclosing => held.toCovered.around rfl rfl rfl rfl, ?_⟩
    have later := third.lastStop_le
    omega
  · subst same
    have third := after?_held (by decide) (fun sound run => (assignment_read deeper sound run).toHeld)
      second.sound init
    have reach := third.lastStop_le
    have held := first.trans (second.trans third)
    rw [List.nil_append, ← shownOptional_eq] at held
    have finish (part : Shown) : EndsFrom part m'' ended := .of_consumeSemicolon ends
    have later := (finish (.stray default 0)).lastStop_le third.sound
    refine ⟨fun extent _ stops enclosing => ?_, by omega⟩
    refine held.terminate sound (by omega) (finish _) rfl stops fun known tail => ?_
    obtain rfl : value = some known := tail
    rcases after?_ok.mp init with ⟨here, _, item, same⟩ | ⟨-, absent, -⟩
    · obtain rfl := Option.some.inj same
      have before := second.sound.advance_held (Cursor.plain_of_sees (by decide) here)
      exact (assignment_read deeper before.sound item).stop
    · cases absent

theorem memberForm_read {form : Extent → ClassMember} (sound : c.Sound origin)
    (run : scope.memberForm c = .ok (form, c'))
    : MemberFormRead origin c c form c' := by
  simp only [memberForm, bind_ok, get_ok, ite_ok, pure_ok, advance_ok] at run
  obtain ⟨eaten, m, semicolon, ⟨taken, rfl, rfl⟩ | ⟨untaken, _, _, ⟨rfl, rfl⟩, run⟩⟩ := run
  · rcases eat_ok.mp semicolon with ⟨-, here, rfl⟩ | ⟨absent, -⟩
    · obtain ⟨token, there, -, stray⟩ := sound.semicolon_covered here
      refine ⟨fun extent begins stops enclosing => ?_, (sound.offset_lt_advance there).1⟩
      exact stray.empty there begins stops rfl
    · rw [absent] at taken
      cases taken
  · have first : Held origin c [] m := by
      rcases eat_ok.mp semicolon with ⟨taken, -⟩ | ⟨-, -, rfl⟩
      · exact absurd taken untaken
      · exact .refl sound
    have start := first.offset_le
    rcases run with ⟨static, _, _, rfl, block, _, enclosed, rfl, rfl⟩ | ⟨-, _, m', static, run⟩
    · simp only [Bool.and_eq_true] at static
      have second := first.sound.advance_held (Cursor.plain_of_sees (by decide) static.1)
      obtain ⟨third, rises⟩ := block_held deeper second.sound enclosed
      have held := first.trans (second.trans third)
      have onward := second.offset_le
      exact ⟨fun extent _ _ enclosing => held.toCovered.around rfl rfl rfl rfl, by omega⟩
    · have second := advanceIf_held first.sound static fun holds => by
        simp only [Bool.and_eq_true] at holds
        exact Cursor.plain_of_sees (by decide) holds.1
      have read := memberDefinition_read deeper c second.sound run
      have onward := second.offset_le
      have rises := read.rises
      refine ⟨fun extent begins stops enclosing => ?_, by omega⟩
      exact first.toCovered.trans
        (second.toCovered.trans (read.covered extent begins stops enclosing))

theorem classMember_read {member : ClassMember} (sound : c.Sound origin)
    (run : scope.classMember c = .ok (member, c'))
    : (∀ enclosing, Covered origin c (.classMember member enclosing :: member.shown) c')
      ∧ c.offset < c'.lastStop := by
  simp only [classMember, bind_ok, get_ok, start_ok, extentFrom_ok, pure_ok] at run
  obtain ⟨_, _, ⟨rfl, rfl⟩, _, _, ⟨token, here, rfl, rfl⟩, form, m, run, _, _, ⟨rfl, rfl⟩, rfl, rfl⟩ :=
    run
  have read := memberForm_read deeper sound run
  have begins := Cursor.Sound.offset_eq here
  refine ⟨fun enclosing => read.covered _ ⟨rfl, begins.symm⟩ ⟨rfl, ?_⟩ enclosing, read.rises⟩
  have rises := read.rises
  rw [begins] at rises
  simp only
  omega

theorem classDef_held {definition : ClassDef} (sound : c.Sound origin)
    (run : scope.classDef c = .ok (definition, c'))
    : Held origin c definition.shown c' ∧ c.offset < c'.lastStop := by
  simp only [classDef, bind_ok, get_ok, start_ok, spanFrom_ok, pure_ok] at run
  obtain ⟨_, m, word, _, _, ⟨rfl, rfl⟩, _, m', named, superClass, m'', heritage, _, _,
    ⟨_, -, -, rfl⟩, _, _, opens, members, _, listed, span, _, ⟨-, rfl⟩, rfl, rfl⟩ := run
  obtain ⟨first, rises⟩ := expect_held (by decide) sound word
  have second := advanceIf_held first.sound named fun holds => by
    simp only [Bool.and_eq_true, Cursor.atKind, Option.any_eq_true] at holds
    obtain ⟨⟨token, here, kind⟩, -⟩ := holds
    exact Cursor.plain_of_kind here (by rw [beq_iff_eq.mp kind]; rfl)
  have third := after?_held (by decide) (fun sound run => (deeper.heritage sound run).toHeld) second.sound heritage
  have fourth := (expect_held (by decide) third.sound opens).1
  obtain ⟨fifth, -⟩ := itemsUntil_held (by decide)
    (fun sound run => (classMember_read deeper sound run).1 (.classBody span))
    (fun sound run => (classMember_read deeper sound run).2) fourth.sound listed
  rw [ClassDef.shown, shownOptional_eq, shownMembers_eq]
  refine ⟨first.trans (second.trans (third.trans (fourth.trans fifth))), ?_⟩
  have onward := second.lastStop_le.trans (third.lastStop_le.trans fourth.lastStop_le)
  exact Nat.lt_of_lt_of_le rises (onward.trans fifth.lastStop_le)

end Scope

end ScriptStyle.Grammar
