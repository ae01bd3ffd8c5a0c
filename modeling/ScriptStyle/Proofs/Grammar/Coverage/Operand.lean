import ScriptStyle.Proofs.Grammar.Coverage.Function

/-!
Coverage by operands with all that can follow them without an operator. After an operand no
template literal follows, since it would have been read as the argument of a tag.
-/

namespace ScriptStyle.Grammar

open ScriptStyle.Grammar.Parser

variable {origin : Scanner} {c m c' : Cursor} {scope : Scope}

namespace Scope

-----------------------------------------------------------------------------------------
-- Templates
-----------------------------------------------------------------------------------------

/-- A span within what is read from one cursor to another. -/
structure Inside (c c' : Cursor) (span : Span) : Prop where
  after : c.offset ≤ span.start
  ordered : span.start ≤ span.stop
  before : span.stop ≤ c'.lastStop

/-- A token of a template holds a piece of it between its delimiters. -/
theorem inside_of_shrink {token : Token} (lead trail : Nat) (sound : c.Sound origin)
    (here : c.peek? = some token) (room : lead + trail ≤ Scanner.delimiterRoom token.kind)
    : Inside c c.advance (token.span.shrink lead trail) := by
  obtain ⟨scanner, reading, after, -, read, -⟩ := sound.head here
  have bounds := Scanner.delimiterRoom_of_next read
  have start := Cursor.Sound.offset_eq here
  have stop := Cursor.advance_lastStop here
  constructor <;> simp only [Span.shrink] <;> omega

theorem templatePiece_held {piece : Span} {more : Bool} (sound : c.Sound origin)
    (run : templatePiece c = .ok ((piece, more), c'))
    : Held origin c [] c' ∧ Inside c c' piece := by
  simp only [templatePiece, bind_ok, get_ok] at run
  obtain ⟨_, _, ⟨rfl, rfl⟩, run⟩ := run
  cases here : c.peek? with
  | none => simp only [here, unexpected_ok] at run
  | some token =>
      simp only [here, bind_ok, ite_ok, advance_ok, pure_ok, unexpected_ok, and_false, or_false,
        beq_iff_eq, Prod.mk.injEq] at run
      rcases run with ⟨kind, _, _, rfl, ⟨rfl, -⟩, rfl⟩ | ⟨-, kind, _, _, rfl, ⟨rfl, -⟩, rfl⟩
      all_goals
        exact ⟨sound.advance_held (Cursor.plain_of_kind here (by rw [kind]; rfl)),
          inside_of_shrink _ _ sound here (by rw [kind]; decide)⟩

section Deeper

variable (deeper : scope.deeper.Covers origin)

include deeper

theorem substitution_held {found : Round (Expression × Span)} (sound : c.Sound origin)
    (run : scope.substitution c = .ok (found, c'))
    : Held origin c (found.shown fun item => item.1.shown) c' ∧ c.offset < c'.lastStop
      ∧ ∃ item, (found = .more item ∨ found = .last item) ∧ Inside c c' item.2 := by
  simp only [substitution, bind_ok, pure_ok] at run
  obtain ⟨value, m, valued, ⟨piece, more⟩, m', pieced, rfl, rfl⟩ := run
  have first := expression_read deeper sound valued
  obtain ⟨second, inside⟩ := templatePiece_held first.sound pieced
  have rises := Nat.lt_of_lt_of_le first.rises second.lastStop_le
  have inside : Inside c m' piece := ⟨first.offset_le.trans inside.after, inside.ordered, inside.before⟩
  cases more
  · exact ⟨first.skip second, rises, _, .inr rfl, inside⟩
  · exact ⟨first.skip second, rises, _, .inl rfl, inside⟩

theorem substitution_covers
    : Round.Covers origin scope.substitution fun item => item.1.shown :=
  ⟨fun sound run => (substitution_held deeper sound run).1.toCovered,
    fun sound run _ => (substitution_held deeper sound run).2.1⟩

/-- There is a substitution, and the pieces behind them are within what is read. -/
theorem substitutions_inside {items : List (Expression × Span)}
    (repeated : Rounds scope.substitution c items c') (sound : c.Sound origin)
    : items ≠ [] ∧ ∀ item ∈ items, Inside c c' item.2 := by
  induction repeated with
  | stop run =>
      obtain ⟨-, -, item, equal | equal, -⟩ := substitution_held deeper sound run <;> cases equal
  | last run =>
      obtain ⟨-, -, item, equal | equal, inside⟩ := substitution_held deeper sound run
      all_goals cases equal
      exact ⟨List.cons_ne_nil _ _, by simpa using inside⟩
  | @more c m c' item items run rest ih =>
      obtain ⟨held, -, item, equal | equal, inside⟩ := substitution_held deeper sound run
      all_goals cases equal
      obtain ⟨-, later⟩ := ih held.sound
      have onward := rest.covered (substitution_covers deeper) held.sound
      refine ⟨List.cons_ne_nil _ _, fun other member => ?_⟩
      rcases List.mem_cons.mp member with rfl | behind
      · exact ⟨inside.after, inside.ordered, inside.before.trans onward.lastStop_le⟩
      · have inside := later other behind
        exact ⟨held.offset_le.trans inside.after, inside.ordered, inside.before⟩

/-- A template literal is shown before its substitutions. -/
theorem templateLiteral_held {isTagged : Bool} {literal : TemplateLiteral} {head : Token}
    (sound : c.Sound origin) (here : c.peek? = some head)
    (kind : head.kind = .template ∨ head.kind = .templateHead)
    (run : scope.templateLiteral isTagged c = .ok (literal, c')) (site : LiteralSite)
    : Held origin c (literal.shown site) c' ∧ literal.span = ⟨c.offset, c'.lastStop⟩
      ∧ c.offset < c'.lastStop := by
  have start := Cursor.Sound.offset_eq here
  have rises := (sound.offset_lt_advance here).1
  simp only [templateLiteral, bind_ok, start_ok, get_ok] at run
  obtain ⟨_, _, ⟨_, found, rfl, rfl⟩, _, _, ⟨rfl, rfl⟩, run⟩ := run
  obtain rfl := Option.some.inj (here.symm.trans found)
  simp only [here, bind_ok, ite_ok, advance_ok, spanFrom_ok, pure_ok, beq_iff_eq] at run
  obtain ⟨_, _, rfl, ⟨whole, _, _, ⟨rfl, rfl⟩, rfl, rfl⟩ | ⟨part, others, m, repeated, _, _, ⟨rfl, rfl⟩,
    rfl, rfl⟩⟩ := run
  · have span : (⟨head.span.start, max c.advance.lastStop head.span.start⟩ : Span) = head.span := by
      rw [Nat.max_eq_left (by omega), Cursor.advance_lastStop here]
    have inside := inside_of_shrink 1 1 sound here (by rw [whole]; decide)
    rw [span, TemplateLiteral.shown, shownExpressions]
    refine ⟨sound.literal_held here (by rw [Token.literal?, whole]) rfl ?_, ?_, rises⟩
    · rintro value other equal
      obtain ⟨rfl, -⟩ := Shown.template.inj equal
      refine ⟨rfl, fun quasi member => ?_, fun _ => rfl⟩
      obtain rfl := List.mem_singleton.mp member
      have stop := Cursor.advance_lastStop here
      exact ⟨start ▸ inside.after, inside.ordered, stop ▸ inside.before⟩
    · rw [start, Cursor.advance_lastStop here]
  · have head_kind := kind.resolve_left part
    have covers := substitution_covers deeper
    obtain ⟨moved, -⟩ := sound.advance here
    have rounds := rounds_ok covers moved repeated
    have held : Held origin c.advance (others.flatMap fun item => item.1.shown) m :=
      ⟨rounds.covered covers moved,
        rounds.enclosed covers (fun sound run => (substitution_held deeper sound run).1.enclosed) moved⟩
    obtain ⟨nonempty, inside⟩ := substitutions_inside deeper rounds moved
    have reach := held.lastStop_le
    have onward := (sound.offset_lt_advance here).2
    have parts : shownExpressions (others.map Prod.fst) = others.flatMap fun item => item.1.shown := by
      rw [shownExpressions_eq, List.flatMap_map]
    have first := inside_of_shrink 1 2 sound here (by rw [head_kind]; decide)
    rw [TemplateLiteral.shown, parts]
    refine ⟨(sound.literal_held here (by rw [Token.literal?, head_kind]) ?_ ?_).trans held, ?_,
      by omega⟩
    · simp [Shown.literal?, nonempty]
    · rintro value other equal
      obtain ⟨rfl, -⟩ := Shown.template.inj equal
      refine ⟨by simp, fun quasi member => ?_, fun none => ?_⟩
      · simp only
        rcases List.mem_cons.mp member with rfl | later
        · have := first.after
          have := first.before
          exact ⟨by omega, first.ordered, by omega⟩
        · obtain ⟨item, behind, rfl⟩ := List.mem_map.mp later
          have := (inside item behind).after
          have := (inside item behind).before
          exact ⟨by omega, (inside item behind).ordered, by omega⟩
      · exact absurd (List.map_eq_nil_iff.mp none) nonempty
    · rw [Nat.max_eq_left (by omega), start]

-----------------------------------------------------------------------------------------
-- Arrays and objects
-----------------------------------------------------------------------------------------

theorem arrayElement_held {element : Option Expression} (sound : c.Sound origin)
    (run : scope.arrayElement c = .ok (element, c'))
    : Held origin c (shownOptional element) c' ∧ c.offset < c'.lastStop := by
  simp only [arrayElement, bind_ok, get_ok, ite_ok, pure_ok] at run
  obtain ⟨_, m, comma, ⟨taken, rfl, rfl⟩ | ⟨-, value, m', run, _, _, ⟨rfl, rfl⟩, last⟩⟩ := run
  · obtain ⟨held, rises⟩ := eat_held (by decide) sound comma
    exact ⟨held, rises taken⟩
  · have first := (eat_held (by decide) sound comma).1
    have read := spreadOrAssignment_read deeper first.sound run
    have rises := Nat.lt_of_le_of_lt first.offset_le read.rises
    rcases last with ⟨-, _, _, comma, rfl, rfl⟩ | ⟨-, rfl, rfl⟩
    · have after := (expect_held (by decide) read.sound comma).1
      exact ⟨first.trans (read.skip after), Nat.lt_of_lt_of_le rises after.lastStop_le⟩
    · exact ⟨first.trans read.toHeld, rises⟩

theorem arrayElements_held {elements : List (Option Expression)} (sound : c.Sound origin)
    (plain : c.Plain) (run : scope.arrayElements c = .ok (elements, c'))
    : Held origin c (shownElements elements) c' ∧ c.advance.lastStop ≤ c'.lastStop := by
  simp only [arrayElements, bind_ok, advance_ok] at run
  obtain ⟨_, _, rfl, run⟩ := run
  have first := sound.advance_held plain
  obtain ⟨held, -⟩ := itemsUntil_held (by decide)
    (fun sound run => (arrayElement_held deeper sound run).1.toCovered)
    (fun sound run => (arrayElement_held deeper sound run).2) first.sound run
  rw [shownElements_eq]
  exact ⟨first.trans held, held.lastStop_le⟩

theorem property_held {entry : Property} (sound : c.Sound origin)
    (run : scope.property c = .ok (entry, c'))
    : Held origin c entry.shown c' := by
  simp only [property, bind_ok, get_ok, ite_ok, pure_ok, unexpected_ok, and_false, false_or] at run
  obtain ⟨_, m, dots, ⟨-, value, _, run, rfl, rfl⟩ | ⟨-, modifiers, m₁, words, key, m₂, named, _, _,
    ⟨rfl, rfl⟩, run⟩⟩ := run
  · have first := (eat_held (by decide) sound dots).1
    exact first.trans (assignment_read deeper first.sound run).toHeld
  · have first := (eat_held (by decide) sound dots).1
    have second := first.trans (Modifiers.parse_held first.sound words)
    have third := second.trans (propertyKey_held deeper second.sound named).1
    rcases run with ⟨-, definition, _, rest, rfl, rfl⟩ | ⟨-, -, _, m₃, colon, run⟩
    · exact third.trans (functionRest_held deeper third.sound rest).1
    · have fourth := third.skip (eat_held (by decide) third.sound colon).1
      rcases run with ⟨-, value, _, run, rfl, rfl⟩ | ⟨-, run⟩
      · exact fourth.trans (assignment_read deeper fourth.sound run).toHeld
      · cases key <;> simp only [bind_ok, pure_ok, unexpected_ok] at run
        obtain ⟨default, _, init, rfl, rfl⟩ := run
        rw [Property.shown, shownOptional_eq]
        exact fourth.trans (after?_held (by decide)
          (fun sound run => (assignment_read deeper sound run).toHeld) fourth.sound init)

theorem properties_held {entries : List Property} (sound : c.Sound origin)
    (plain : c.Plain) (run : scope.properties c = .ok (entries, c'))
    : Held origin c (shownProperties entries) c' ∧ c.advance.lastStop ≤ c'.lastStop := by
  simp only [properties, bind_ok, advance_ok] at run
  obtain ⟨_, _, rfl, run⟩ := run
  have first := sound.advance_held plain
  rw [shownProperties_eq]
  obtain ⟨held, -⟩ := commaListUntil_held (by decide)
    (fun sound run => (property_held deeper sound run).toCovered) first.sound run
  exact ⟨first.trans held, held.lastStop_le⟩

-----------------------------------------------------------------------------------------
-- Operands
-----------------------------------------------------------------------------------------

theorem wordOperand_read {token : Token} {word : String} {form : Span → Expression}
    (sound : c.Sound origin) (here : c.peek? = some token) (kind : token.kind = .identifier)
    (run : scope.wordOperand word c = .ok (form, c'))
    : OperandFormRead origin c form c' := by
  have first := sound.advance_held (Cursor.plain_of_kind here (by simp [kind, TokenKind.isPlain]))
  have taken := (sound.offset_lt_advance here).1
  simp only [wordOperand, bind_ok, get_ok] at run
  obtain ⟨_, _, ⟨rfl, rfl⟩, run⟩ := run
  split at run
  case h_1 =>
    obtain ⟨definition, defined, rfl⟩ := map_ok.mp run
    obtain ⟨held, rises⟩ := functionDef_held deeper sound defined
    exact ⟨fun _ _ => held, fun _ => rfl, rises⟩
  case h_2 =>
    obtain ⟨definition, defined, rfl⟩ := map_ok.mp run
    obtain ⟨held, rises⟩ := classDef_held deeper sound defined
    exact ⟨fun _ _ => held, fun _ => rfl, rises⟩
  case h_3 =>
    simp only [bind_ok, advance_ok, ite_ok, pure_ok, map_ok] at run
    obtain ⟨_, _, rfl, _, m, dot, ⟨-, _, _, named, rfl, rfl⟩ | ⟨-, arguments, listed, rfl⟩⟩ := run
    all_goals have second := (eat_held (by decide) first.sound dot).1
    · have third := identifier_held second.sound named
      exact ⟨fun _ _ => first.trans (second.trans third), fun _ => rfl,
        Nat.lt_of_lt_of_le taken (second.lastStop_le.trans third.lastStop_le)⟩
    · have third := (arguments_held deeper second.sound listed).1
      exact ⟨fun _ _ => first.trans (second.trans third), fun _ => rfl,
        Nat.lt_of_lt_of_le taken (second.lastStop_le.trans third.lastStop_le)⟩
  case h_4 | h_5 | h_6 | h_7 | h_8 =>
    simp only [bind_ok, advance_ok, pure_ok] at run
    obtain ⟨_, _, rfl, rfl, rfl⟩ := run
    exact ⟨fun _ _ => first, fun _ => rfl, taken⟩
  case h_9 =>
    simp only [bind_ok, advance_ok, ite_ok, pure_ok, map_ok] at run
    rcases run with ⟨-, definition, defined, rfl⟩ | ⟨-, _, _, rfl, rfl, rfl⟩
    · obtain ⟨held, rises⟩ := functionDef_held deeper sound defined
      exact ⟨fun _ _ => held, fun _ => rfl, rises⟩
    · exact ⟨fun _ _ => first, fun _ => rfl, taken⟩

theorem punctuatorOperand_read {token : Token} {form : Span → Expression}
    (sound : c.Sound origin) (here : c.peek? = some token) (kind : token.kind = .punctuator)
    (run : scope.punctuatorOperand token.text c = .ok (form, c'))
    : OperandFormRead origin c form c' := by
  have taken := (sound.offset_lt_advance here).1
  have plain (opens : token.text ≠ "=>" ∧ token.text ≠ ";") : c.Plain :=
    Cursor.plain_of_punctuator here kind opens.1 opens.2
  simp only [punctuatorOperand] at run
  generalize text : token.text = opening at run plain
  split at run
  case h_1 =>
    simp only [bind_ok, advance_ok, pure_ok] at run
    obtain ⟨_, _, rfl, inner, m, read, _, _, closes, rfl, rfl⟩ := run
    have first := sound.advance_held (plain (by decide))
    have second := expression_read deeper first.sound read
    have third := (expect_held (by decide) second.sound closes).1
    exact ⟨fun _ _ => first.trans (second.skip third), fun _ => rfl,
      Nat.lt_of_lt_of_le taken (second.lastStop_le.trans third.lastStop_le)⟩
  case h_2 =>
    obtain ⟨elements, listed, rfl⟩ := map_ok.mp run
    obtain ⟨held, reach⟩ := arrayElements_held deeper sound (plain (by decide)) listed
    exact ⟨fun _ _ => held, fun _ => rfl, Nat.lt_of_lt_of_le taken reach⟩
  case h_3 =>
    obtain ⟨entries, listed, rfl⟩ := map_ok.mp run
    obtain ⟨held, reach⟩ := properties_held deeper sound (plain (by decide)) listed
    exact ⟨fun _ _ => held, fun _ => rfl, Nat.lt_of_lt_of_le taken reach⟩
  case h_4 => simp only [unexpected_ok] at run

theorem operandForm_read {token : Token} {form : Span → Expression} (sound : c.Sound origin)
    (here : c.peek? = some token) (run : scope.operandForm token c = .ok (form, c'))
    : OperandFormRead origin c form c' := by
  have taken := (sound.offset_lt_advance here).1
  simp only [operandForm] at run
  cases kind : token.kind
    <;> simp only [kind, bind_ok, advance_ok, pure_ok, unexpected_ok] at run
  case identifier => exact wordOperand_read deeper sound here kind run
  case punctuator => exact punctuatorOperand_read deeper sound here kind run
  case string =>
    obtain ⟨_, _, rfl, rfl, rfl⟩ := run
    refine ⟨fun span equal => ?_, fun _ => rfl, taken⟩
    rw [equal, Cursor.Sound.offset_eq here, Cursor.advance_lastStop here]
    exact sound.string_held here kind .expression
  case template | templateHead =>
    obtain ⟨literal, read, rfl⟩ := map_ok.mp run
    obtain ⟨held, -, rises⟩ := templateLiteral_held deeper sound here (by simp [kind]) read .expression
    exact ⟨fun _ _ => held, fun _ => rfl, rises⟩
  all_goals
    obtain ⟨_, _, rfl, rfl, rfl⟩ := run
    exact ⟨fun _ _ => sound.advance_held
      (Cursor.plain_of_kind here (by simp [kind, TokenKind.isPlain])), fun _ => rfl, taken⟩

/-- An operand begins where a slash in its place was read again. -/
theorem operand_read {e : Expression} (sound : c.Sound origin)
    (run : scope.operand c = .ok (e, c'))
    : ExpressionRead origin c e c' := by
  simp only [operand, bind_ok, start_ok, get_ok] at run
  obtain ⟨_, m, again, _, _, ⟨token, here, rfl, rfl⟩, _, _, ⟨rfl, rfl⟩, run⟩ := run
  have first := rereadAt_held sound again
  obtain ⟨form, _, formed, _, _, ⟨rfl, rfl⟩, rfl, rfl⟩ : ∃ form m', scope.operandForm token m
      = .ok (form, m') ∧ ∃ span m'', (⟨token.span.start, max m'.lastStop token.span.start⟩ = span
        ∧ m' = m'') ∧ form span = e ∧ m'' = c' := by
    simpa only [here, bind_ok, spanFrom_ok, pure_ok] using run
  have start : m.offset = c.offset := by
    rcases rereadAt_ok.mp again with ⟨slash, rfl⟩ | ⟨-, rfl⟩
    · simp only [Cursor.atKind, Option.any_eq_true] at slash
      obtain ⟨old, there, -⟩ := slash
      rw [Cursor.Sound.offset_eq here, Cursor.Sound.offset_eq there, sound.reread_start there here]
    · rfl
  have second := operandForm_read deeper first.sound here formed
  have rises := second.rises
  have begins := Cursor.Sound.offset_eq here
  refine ⟨first.trans (second.held _ ?_), ?_, ?_, by omega⟩
  · rw [begins, Nat.max_eq_left (by omega)]
  · rw [second.spans, ← start, begins]
  · rw [second.spans]
    simp only
    omega

end Deeper

end Scope

end ScriptStyle.Grammar
