import ScriptStyle.Proofs.Grammar.Coverage.Suffix
import ScriptStyle.Proofs.Grammar.Layout.Operand

/-!
How operands are laid out with what follows them without an operator, and with the operators
around them.
-/

namespace ScriptStyle.Grammar

open ScriptStyle.Grammar.Parser

variable {origin : Scanner} {c m c' : Cursor} {scope : Scope}

namespace Scope

-----------------------------------------------------------------------------------------
-- Suffixes
-----------------------------------------------------------------------------------------

/-- What a suffix consists of. -/
def Suffix.nodes : Suffix → List Node
  | member _ => []
  | index key => [.expression key]
  | call arguments => arguments.map .expression
  | tagged literal => [.template literal]

/-- A suffix is laid out: the nodes in it, and the name of an accessed property. -/
structure SuffixLaid (origin : Scanner) (c : Cursor) (suffix : Suffix) (c' : Cursor) : Prop
    extends Laid origin c suffix.nodes c' where
  name : ∀ name, suffix = .member name → (⟨c.offset, c'.lastStop⟩ : Span).encloses name

/-- Tokens of no node may come before a suffix. -/
theorem SuffixLaid.after {suffix : Suffix} (second : SuffixLaid origin m suffix c')
    (first : Laid origin c [] m)
    : SuffixLaid origin c suffix c' where
  toLaid := second.toLaid.after first
  name name same :=
    Span.encloses_trans (first.toMoves.encloses (.refl second.sound)) (second.name name same)

theorem memberName_laid {name : Span} (sound : c.Sound origin) (run : memberName c = .ok (name, c'))
    : SuffixLaid origin c (.member name) c' := by
  simp only [memberName, bind_ok, get_ok] at run
  obtain ⟨_, _, ⟨rfl, rfl⟩, run⟩ := run
  cases here : c.peek? with
  | none => simp only [here, unexpected_ok] at run
  | some token =>
      simp only [here, bind_ok, ite_ok, advance_ok, pure_ok, unexpected_ok, and_false, or_false,
        Bool.or_eq_true, beq_iff_eq] at run
      obtain ⟨kind, _, _, rfl, rfl, rfl⟩ := run
      have unbraced := Cursor.unbraced_of_kind here (by rcases kind with kind | kind <;> simp [kind])
      refine ⟨sound.advance_laid unbraced, ?_⟩
      rintro _ ⟨⟩
      rw [Cursor.Sound.offset_eq here, Cursor.advance_lastStop here]
      exact Span.encloses_refl _

variable (deeper : scope.deeper.Lays origin)

include deeper

theorem indexRest_laid {suffix : Suffix} (sound : c.Sound origin)
    (run : scope.indexRest c = .ok (suffix, c'))
    : SuffixLaid origin c suffix c' := by
  simp only [indexRest, bind_ok, pure_ok] at run
  obtain ⟨key, m, read, _, _, closes, rfl, rfl⟩ := run
  have first := expression_laid deeper sound read
  exact ⟨first.skip (expect_laid (by decide) first.sound closes), (by simp)⟩

theorem callSuffix_laid {arguments : List Expression} (sound : c.Sound origin)
    (run : scope.arguments c = .ok (arguments, c'))
    : SuffixLaid origin c (.call arguments) c' :=
  ⟨arguments_laid deeper sound run, (by simp)⟩

theorem suffix?_laid {allowCall : Bool} {suffix : Suffix} (sound : c.Sound origin)
    (run : scope.suffix? allowCall c = .ok (some suffix, c'))
    : SuffixLaid origin c suffix c' := by
  simp only [suffix?, bind_ok, get_ok] at run
  obtain ⟨_, _, ⟨rfl, rfl⟩, run⟩ := run
  cases here : c.peek? with
  | none => simp [here, pure_ok] at run
  | some token =>
      cases kind : token.kind <;> simp only [here, kind] at run
      case template | templateHead =>
        simp only [bind_ok, pure_ok] at run
        obtain ⟨literal, _, read, equal, rfl⟩ := run
        obtain rfl := Option.some.inj equal
        exact ⟨templateLiteral_laid deeper sound here (by simp [kind]) read, (by simp)⟩
      case punctuator =>
        generalize text : token.text = symbol at run
        split at run
        case h_1 =>
          simp only [bind_ok, advance_ok, pure_ok] at run
          obtain ⟨_, _, rfl, name, _, named, equal, rfl⟩ := run
          obtain rfl := Option.some.inj equal
          have first := sound.advance_laid (Cursor.unbraced_of_text here (by simp [text]))
          exact (memberName_laid first.sound named).after first
        case h_2 =>
          simp only [bind_ok, advance_ok, map_ok] at run
          obtain ⟨_, _, rfl, found, rest, equal⟩ := run
          obtain rfl := Option.some.inj equal
          have first := sound.advance_laid (Cursor.unbraced_of_text here (by simp [text]))
          exact (indexRest_laid deeper first.sound rest).after first
        case h_3 =>
          simp only [ite_ok, bind_ok, pure_ok] at run
          rcases run with ⟨-, arguments, _, listed, equal, rfl⟩ | ⟨-, equal, -⟩
          · obtain rfl := Option.some.inj equal
            exact callSuffix_laid deeper sound listed
          · cases equal
        case h_4 =>
          simp only [ite_ok, bind_ok, get_ok, advance_ok, map_ok, pure_ok] at run
          rcases run with ⟨-, _, _, rfl, _, _, ⟨rfl, rfl⟩, run⟩ | ⟨-, equal, -⟩
          · have first := sound.advance_laid (Cursor.unbraced_of_text here (by simp [text]))
            rcases run with ⟨-, arguments, _, listed, equal, rfl⟩ | ⟨-, _, m, opens, run⟩
            · obtain rfl := Option.some.inj equal
              exact (callSuffix_laid deeper first.sound listed).after first
            · have second := first.trans (eat_laid (by decide) first.sound opens)
              rcases run with ⟨-, found, rest, equal⟩ | ⟨-, name, _, named, equal, rfl⟩
              · obtain rfl := Option.some.inj equal
                exact (indexRest_laid deeper second.sound rest).after second
              · obtain rfl := Option.some.inj equal
                exact (memberName_laid second.sound named).after second
          · cases equal
        case h_5 => cases (pure_ok.mp run).1
      all_goals cases (pure_ok.mp run).1

theorem suffixRound_laid {allowCall : Bool} {item : Suffix × Nat} (sound : c.Sound origin)
    (run : scope.suffixRound allowCall c = .ok (.more item, c'))
    : SuffixLaid origin c item.1 c' := by
  simp only [suffixRound, bind_ok] at run
  obtain ⟨suffix, m, found, run⟩ := run
  cases suffix with
  | none => cases (pure_ok.mp run).1
  | some suffix =>
      simp only [bind_ok, get_ok, pure_ok] at run
      obtain ⟨_, _, ⟨rfl, rfl⟩, equal, rfl⟩ := run
      obtain rfl := Round.more.inj equal
      exact suffix?_laid deeper sound found

omit deeper in
/-- An operand is laid out with a suffix. -/
theorem Suffix.apply_laid {object : Expression} {suffix : Suffix} {stop : Nat}
    (operand : Laid origin c [.expression object] m) (second : SuffixLaid origin m suffix c')
    (read : ExpressionRead origin c (suffix.apply object stop) c')
    : Laid origin c [.expression (suffix.apply object stop)] c' := by
  have inner : Laid origin c (.expression object :: suffix.nodes) c' := operand.trans second.toLaid
  cases suffix with
  | member name =>
      have laid : Laid origin c (Node.expression (Suffix.apply object (.member name) stop)).children
          c' := inner
      refine laid.around (by simp [apply]) (fun span same => ?_) (fun span member => ?_)
        (by simp [Node.extent?]) (by simp [Node.body?])
      · rw [← Option.some.inj same]
        exact read.span
      · obtain rfl := List.mem_singleton.mp member
        exact Span.encloses_trans (operand.toMoves.encloses (.refl second.sound)) (second.name _ rfl)
  | index | call | tagged => exact Laid.expression inner read rfl

/-- An operand with all its suffixes is laid out. -/
theorem withSuffixes_laid {allowCall : Bool} {object e : Expression}
    (read : ExpressionRead origin c object m) (laid : Laid origin c [.expression object] m)
    (run : scope.withSuffixes allowCall object m = .ok (e, c'))
    : Laid origin c [.expression e] c' := by
  simp only [withSuffixes, bind_ok, pure_ok] at run
  obtain ⟨suffixes, _, repeated, rfl, rfl⟩ := run
  have rounds := rounds_ok (suffixRound_covers deeper.toCovers allowCall) read.sound repeated
  clear repeated
  induction rounds generalizing object with
  | stop run =>
      rcases suffixRound_held deeper.toCovers read.sound run with ⟨-, rfl⟩ | ⟨_, equal, -⟩
      · exact laid
      · cases equal
  | last run =>
      rcases suffixRound_held deeper.toCovers read.sound run with ⟨equal, -⟩ | ⟨_, equal, -⟩
        <;> cases equal
  | more run rest ih =>
      have second := suffixRound_laid deeper read.sound run
      rcases suffixRound_held deeper.toCovers read.sound run with ⟨equal, -⟩ | ⟨suffix, equal, held, -⟩
      · cases equal
      · obtain rfl := Round.more.inj equal
        have wider := read.suffix held
        exact ih wider (Suffix.apply_laid laid second wider)

-----------------------------------------------------------------------------------------
-- Constructions
-----------------------------------------------------------------------------------------

theorem callee_laid {e : Expression} (sound : c.Sound origin) (run : scope.callee c = .ok (e, c'))
    : Laid origin c [.expression e] c' := by
  simp only [callee, bind_ok, start_ok, get_ok, ite_ok] at run
  obtain ⟨_, _, ⟨token, here, rfl, rfl⟩, _, _, ⟨rfl, rfl⟩, run⟩ := run
  rcases run with ⟨new, object, m, constructed, run⟩ | ⟨-, object, m, read, run⟩
  · have plain := Cursor.plain_of_sees (by decide) new
    exact withSuffixes_laid deeper (deeper.construct sound plain constructed)
      (deeper.construct_laid sound new constructed) run
  · exact withSuffixes_laid deeper (operand_read deeper.toCovers sound read)
      (operand_laid deeper sound read) run

theorem constructArguments_laid {items : List Expression} (sound : c.Sound origin)
    (run : scope.constructArguments c = .ok (items, c'))
    : Laid origin c (items.map .expression) c' := by
  simp only [constructArguments, bind_ok, get_ok, ite_ok, pure_ok] at run
  obtain ⟨_, _, ⟨rfl, rfl⟩, ⟨-, run⟩ | ⟨-, rfl, rfl⟩⟩ := run
  · exact arguments_laid deeper sound run
  · exact .refl sound

theorem construct_laid {e : Expression} (sound : c.Sound origin) (new : c.sees "new")
    (run : scope.construct c = .ok (e, c'))
    : Laid origin c [.expression e] c' := by
  have read := construct_read deeper.toCovers sound (Cursor.plain_of_sees (by decide) new) run
  simp only [construct, bind_ok, start_ok, advance_ok, ite_ok, spanFrom_ok, pure_ok] at run
  obtain ⟨_, _, ⟨token, here, rfl, rfl⟩, _, _, rfl, dot, m, eaten, run⟩ := run
  have first := sound.advance_laid (Cursor.unbraced_of_sees (by decide) new)
  have second := first.trans (eat_laid (by decide) first.sound eaten)
  rcases run with ⟨-, _, _, named, _, _, ⟨rfl, rfl⟩, rfl, rfl⟩
    | ⟨-, object, m₁, called, items, m₂, listed, _, _, ⟨rfl, rfl⟩, rfl, rfl⟩
  · have inner := second.trans (identifier_skipped second.sound named).1
    exact inner.expression read rfl
  · have third := (callee_laid deeper second.sound called).after second
    have inner := third.trans (constructArguments_laid deeper third.sound listed)
    exact inner.expression read rfl

theorem leftHandSide_laid {e : Expression} (sound : c.Sound origin)
    (run : scope.leftHandSide c = .ok (e, c'))
    : Laid origin c [.expression e] c' := by
  simp only [leftHandSide, bind_ok, start_ok, get_ok, ite_ok] at run
  obtain ⟨_, _, ⟨token, here, rfl, rfl⟩, _, _, ⟨rfl, rfl⟩, run⟩ := run
  rcases run with ⟨new, object, m, constructed, run⟩ | ⟨-, object, m, read, run⟩
  · have plain := Cursor.plain_of_sees (by decide) new
    exact withSuffixes_laid deeper (construct_read deeper.toCovers sound plain constructed)
      (construct_laid deeper sound new constructed) run
  · exact withSuffixes_laid deeper (operand_read deeper.toCovers sound read)
      (operand_laid deeper sound read) run

-----------------------------------------------------------------------------------------
-- Operators with one operand
-----------------------------------------------------------------------------------------

omit deeper in
theorem unbraced_of_isUnaryOperator {token : Token} (here : c.peek? = some token)
    (unary : isUnaryOperator c token)
    : c.Unbraced := by
  cases kind : token.kind <;> simp only [isUnaryOperator, kind] at unary
  case identifier => exact Cursor.unbraced_of_kind here (by simp [kind])
  case punctuator =>
    refine Cursor.unbraced_of_text here ⟨fun text => ?_, fun text => ?_⟩
    all_goals
      rw [text] at unary
      exact absurd unary (by decide)
  all_goals cases unary

theorem postfixed_laid {e : Expression} (sound : c.Sound origin)
    (run : scope.postfixed c = .ok (e, c'))
    : Laid origin c [.expression e] c' := by
  have read := postfixed_read deeper.toCovers sound run
  simp only [postfixed, bind_ok, start_ok, get_ok, ite_ok, advance_ok, spanFrom_ok, pure_ok] at run
  obtain ⟨_, _, ⟨token, here, rfl, rfl⟩, operand, m, found, _, _, ⟨rfl, rfl⟩, run⟩ := run
  have first := leftHandSide_laid deeper sound found
  rcases run with ⟨update, _, _, rfl, _, _, ⟨rfl, rfl⟩, rfl, rfl⟩ | ⟨-, rfl, rfl⟩
  · simp only [Option.any_eq_true, Bool.and_eq_true] at update
    obtain ⟨operator, there, update, -⟩ := update
    have inner := first.skip
      (first.sound.advance_laid (Cursor.unbraced_of_isPunctuatorIn (by decide) there update))
    exact inner.expression read rfl
  · exact first

theorem unaryNode_laid {e : Expression} (sound : c.Sound origin)
    (run : scope.unaryNode c = .ok (e, c'))
    : Laid origin c [.expression e] c' := by
  have read := unaryNode_read deeper.toCovers sound run
  simp only [unaryNode, bind_ok, start_ok, get_ok] at run
  obtain ⟨_, _, ⟨token, here, rfl, rfl⟩, _, _, ⟨rfl, rfl⟩, run⟩ := run
  simp only [here, ite_ok, bind_ok, advance_ok, spanFrom_ok, pure_ok] at run
  rcases run with ⟨update, _, _, rfl, operand, m, found, _, _, ⟨rfl, rfl⟩, rfl, rfl⟩
    | ⟨-, ⟨unary, _, _, rfl, operand, m, found, _, _, ⟨rfl, rfl⟩, rfl, rfl⟩ | ⟨-, run⟩⟩
  · have first := sound.advance_laid (Cursor.unbraced_of_isPunctuatorIn (by decide) here update)
    have inner := (deeper.unary_laid first.sound found).after first
    exact inner.expression read rfl
  · have first := sound.advance_laid (unbraced_of_isUnaryOperator here unary)
    have inner := (deeper.unary_laid first.sound found).after first
    exact inner.expression read rfl
  · exact postfixed_laid deeper sound run

end Scope

end ScriptStyle.Grammar
