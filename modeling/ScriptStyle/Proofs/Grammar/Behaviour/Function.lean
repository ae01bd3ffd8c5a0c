import ScriptStyle.Proofs.Grammar.Behaviour.Basic
import ScriptStyle.Proofs.Grammar.Coverage.Expression

/-!
What the parsers of functions and classes do, and those that all constructs are made of. The word
that makes a function or a method asynchronous is followed on its line.
-/

namespace ScriptStyle.Grammar

open Node (Intact)
open ScriptStyle.Grammar.Parser

variable {source : String} {tokens : List Token} {c m : Cursor}

-----------------------------------------------------------------------------------------
-- Levels
-----------------------------------------------------------------------------------------

/-- An expression takes a token. -/
theorem ExpressionRead.index_lt {origin : Scanner} {value : Expression}
    (read : ExpressionRead origin c value m) (sound : c.Sound origin)
    : c.index < m.index := by
  obtain ⟨low, high, -⟩ := sound.last_of_rises read.toLedger read.rises
  omega

/-- The constructs of a level give nodes in which no line is broken, or errors that point into the
source. -/
structure Level.Behaves (source : String) (tokens : List Token) (level : Level) : Prop
    extends Level.Covers (.ofSource source) level where
  statement_behaves (inGenerator : Bool) (c : Cursor)
    : Parser.Behaves source tokens c (level.statement inGenerator)
        fun value _ => (Node.statement value).Intact tokens
  assignment_behaves (inGenerator allowIn : Bool) (c : Cursor)
    : Parser.Behaves source tokens c (level.assignment inGenerator allowIn)
        fun value _ => (Node.expression value).Intact tokens
  unary_behaves (inGenerator : Bool) (c : Cursor)
    : Parser.Behaves source tokens c (level.unary inGenerator)
        fun value _ => (Node.expression value).Intact tokens
  heritage_behaves (inGenerator : Bool) (c : Cursor)
    : Parser.Behaves source tokens c (level.heritage inGenerator)
        fun value _ => (Node.expression value).Intact tokens
  construct_behaves (inGenerator : Bool) (c : Cursor)
    : Parser.Behaves source tokens c (level.construct inGenerator)
        fun value _ => (Node.expression value).Intact tokens

theorem identifier_behaves (c : Cursor)
    : Parser.Behaves source tokens c identifier
        fun value _ => (Node.expression value).Intact tokens := by
  refine .look ?_
  cases c.peek? with
  | none => exact .unexpected
  | some token =>
      refine .ite (fun _ => .skip .advance fun _ _ => .pure fun _ => ?_) fun _ => .unexpected
      exact .intro trivial (by simp [Node.children, Node.ofExpression])

namespace Scope

variable {scope : Scope} (deeper : scope.deeper.Behaves source tokens)

include deeper

-----------------------------------------------------------------------------------------
-- Lists and blocks
-----------------------------------------------------------------------------------------

theorem assignment_behaves (allowIn : Bool) (c : Cursor)
    : Parser.Behaves source tokens c (scope.assignment allowIn)
        fun value _ => (Node.expression value).Intact tokens :=
  deeper.assignment_behaves _ allowIn c

theorem expression_behaves (allowIn : Bool) (c : Cursor)
    : Parser.Behaves source tokens c (scope.expression allowIn)
        fun value _ => (Node.expression value).Intact tokens := by
  refine .skip .start fun start _ => ?_
  refine .bind (.commaSeparated (assignment_behaves deeper allowIn)) fun items _ => ?_
  split
  · exact .pure fun _ all => all _ (by simp)
  · refine .skip .spanFrom fun span _ => .pure fun _ all => .intro trivial ?_
    simpa [Node.children, Node.ofExpression] using all

theorem parenthesized_behaves (c : Cursor)
    : Parser.Behaves source tokens c scope.parenthesized
        fun value _ => (Node.expression value).Intact tokens :=
  .skip .expect fun _ _ => .bind (expression_behaves deeper true _) fun _ _ =>
    .skip .expect fun _ _ => .pure fun _ intact => intact

theorem spreadOrAssignment_behaves (c : Cursor)
    : Parser.Behaves source tokens c scope.spreadOrAssignment
        fun value _ => (Node.expression value).Intact tokens := by
  refine .look (.ite (fun _ => ?_) fun _ => assignment_behaves deeper true c)
  refine .skip .start fun start _ => .skip .advance fun _ m => ?_
  refine .bind (assignment_behaves deeper true m) fun operand _ => ?_
  refine .skip .spanFrom fun span _ => .pure fun _ intact => .intro trivial ?_
  simpa [Node.children, Node.ofExpression] using intact

theorem arguments_behaves (c : Cursor)
    : Parser.Behaves source tokens c scope.arguments
        fun values _ => ∀ value ∈ values, (Node.expression value).Intact tokens :=
  .skip .expect fun _ _ => .commaListUntil (spreadOrAssignment_behaves deeper)

theorem params_behaves (c : Cursor)
    : Parser.Behaves source tokens c scope.params
        fun values _ => ∀ value ∈ values, (Node.expression value).Intact tokens :=
  .skip .expect fun _ _ => .commaListUntil (spreadOrAssignment_behaves deeper)

theorem block_behaves (c : Cursor)
    : Parser.Behaves source tokens c scope.block
        fun value _ => (Node.block value).Intact tokens := by
  refine .skip .start fun start _ => .skip .expect fun _ _ => ?_
  refine .bind (.itemsUntil (deeper.statement_behaves _)) fun body _ => ?_
  refine .skip .spanFrom fun span _ => .pure fun _ all => .intro trivial ?_
  simpa [Node.children] using all

-----------------------------------------------------------------------------------------
-- Functions
-----------------------------------------------------------------------------------------

theorem functionBody_behaves (isGenerator : Bool) (c : Cursor)
    : Parser.Behaves source tokens c (scope.functionBody isGenerator)
        fun value _ => (Node.block value).Intact tokens := by
  have inside : (scope.inFunction isGenerator).deeper.Behaves source tokens := deeper
  exact .map (block_behaves inside c) fun _ _ intact => intact.asBody

theorem functionRest_behaves (isAsync isGenerator : Bool) (c : Cursor)
    : Parser.Behaves source tokens c (scope.functionRest isAsync isGenerator)
        fun value _ => (Node.function value).Intact tokens ∧ value.isAsync = isAsync := by
  refine .bind (params_behaves deeper c) fun params m => ?_
  refine .bind (functionBody_behaves deeper isGenerator m) fun body _ => ?_
  refine .pure fun _ intact all => ⟨.intro trivial ?_, rfl⟩
  simpa [Node.children, or_imp, forall_and] using ⟨all, intact⟩

omit deeper in
/-- Where more is read behind the word in front of an asynchronous function, and no line broken, it
is followed on its line. -/
theorem attachedAsync (sound : c.Sound (.ofSource source)) (async : c.sees "async")
    (inLine : c.newlineAt 1 = false) (moves : Moves (.ofSource source) c.advance m)
    (complete : m.Completes (.ofSource source) tokens) (taken : c.advance.index < m.index)
    : AttachedAsync tokens c.offset := by
  obtain ⟨word, here, terminal⟩ := Cursor.sees_eq_true.mp async
  exact sound.attached here inLine moves complete taken fun _ _ _ _ => terminal

/-- The line is not broken behind the word that makes a function asynchronous, if that was found
before it is read. -/
theorem functionDef_behaves (c : Cursor) (inLine : c.sees "async" → c.newlineAt 1 = false)
    : Parser.Behaves source tokens c scope.functionDef
        fun value _ => (Node.function value).Intact tokens
          ∧ (value.isAsync → AttachedAsync tokens c.offset) := by
  refine .of_sound fun sound => .skip .eat fun isAsync m₁ {word first} => ?_
  refine .skip .expect fun _ m₂ {keyword second} => .skip .eat fun isGenerator m₃ {_ third} => ?_
  refine .look (.skip (.onlyIf fun _ => identifier_behaves m₃) fun _ m₄ {_ fourth} => ?_)
  refine (functionRest_behaves deeper isAsync isGenerator m₄).conclude ?_
  rintro definition c' - last complete ⟨intact, same⟩
  refine ⟨intact, fun async => ?_⟩
  rcases eat_ok.mp word with ⟨-, async', rfl⟩ | ⟨no, -, -⟩
  · obtain ⟨function, rfl⟩ := expect_ok.mp keyword
    obtain ⟨token, here, -⟩ := Cursor.sees_eq_true.mp function
    have onward := third.trans (fourth.trans last)
    refine attachedAsync sound async' (inLine async') (second.trans onward) complete ?_
    exact Nat.lt_of_lt_of_le (first.sound.index_lt_advance here) onward.index_le
  · rw [same, no] at async
    cases async

-----------------------------------------------------------------------------------------
-- Names and modifiers
-----------------------------------------------------------------------------------------

theorem propertyKey_behaves (c : Cursor)
    : Parser.Behaves source tokens c scope.propertyKey
        fun key _ => (Node.propertyKey key).Intact tokens ∧ key.Opens (c.following tokens) := by
  refine .of_sound fun sound => .look ?_
  cases here : c.peek? with
  | none => exact .endOfInput
  | some token =>
      -- A name that is a token of its own is that token.
      have named {make : Span → PropertyKey}
          (plain : ∀ span, (Node.propertyKey (make span)).Intact tokens)
          (opens : ∀ after, (make token.span).Opens (token :: after))
          : Parser.Behaves source tokens c (do
              Parser.advance
              pure (make token.span))
            fun key _ => (Node.propertyKey key).Intact tokens ∧ key.Opens (c.following tokens) := by
        refine .skip .advance fun _ m {run _} => .pure fun complete => ⟨plain _, ?_⟩
        obtain rfl := advance_ok.mp run
        rw [sound.following_advance here complete]
        exact opens _
      dsimp only
      split
      iterate 4
        · exact named (fun _ => .intro trivial (by simp [Node.children])) fun _ => rfl
      · refine .ite (fun bracket => .skip .advance fun _ m {run first} => ?_) fun _ => .unexpected
        obtain rfl := advance_ok.mp run
        refine .bind (assignment_behaves deeper true c.advance) fun value m {read second} => ?_
        refine .skip .expect fun _ _ {_ third} => ?_
        refine .pure fun complete intact => ⟨.intro trivial ?_, ?_⟩
        · simpa [Node.children] using intact
        have complete' := complete.of_moves third
        have value := assignment_read deeper.toCovers first.sound read
        obtain ⟨opening, after, listed, start⟩ :=
          first.sound.following_of_moves second complete' (value.index_lt first.sound)
        rw [sound.following_advance here (complete'.of_moves second), listed]
        exact ⟨by simp_all [Token.isPunctuator], start.trans value.start.symm⟩
      · exact .unexpected

omit deeper in
/-- The word that makes a method asynchronous is followed on its line by the name of the method, or
by the asterisk in front of it. -/
theorem modifiers_behaves (nameEnds : List String) (c : Cursor)
    : Parser.Behaves source tokens c (Modifiers.parse nameEnds)
        fun modifiers c' => modifiers.isAsync →
          ∀ key : PropertyKey, key.Opens (c'.following tokens) → key.FollowsAsync tokens := by
  refine .of_sound fun sound => .look (.skip .advanceIf fun _ m {word first} => ?_)
  refine .skip .eat fun isGenerator m' {star second} => .look ?_
  refine .skip .advanceIf fun _ m'' {accessor third} => .pure fun complete async key opens => ?_
  dsimp only at async word accessor
  -- There are no other words behind this one.
  rcases advanceIf_ok.mp accessor with ⟨other, -⟩ | ⟨-, rfl⟩
  · simp [async] at other
  rcases advanceIf_ok.mp word with ⟨-, rfl⟩ | ⟨no, -⟩
  · simp only [Bool.and_eq_true, Bool.not_eq_true'] at async
    obtain ⟨⟨sees, -⟩, inLine⟩ := async
    obtain ⟨token, here, terminal⟩ := Cursor.sees_eq_true.mp sees
    have complete' := complete.of_moves second
    have front := sound.following_advance here complete'
    have attached {next : Token} {after : List Token}
        (listed : c.advance.following tokens = next :: after)
        (holds : key.Opens (next :: after) ∨ next.isPunctuator "*" ∧ key.Opens after)
        : key.FollowsAsync tokens := by
      refine ⟨_, token, next, after, ?_, rfl, ?_, terminal, holds⟩
      · rw [← listed, ← front]
        exact Cursor.following_suffix ..
      · rw [first.sound.newline_of_following complete' listed, ← sound.newlineAt_one here, inLine]
    rcases eat_ok.mp star with ⟨-, asterisk, rfl⟩ | ⟨-, -, rfl⟩
    · obtain ⟨next, there, -⟩ := Cursor.sees_eq_true.mp asterisk
      have spelled := first.sound.isPunctuator_of_sees there asterisk rfl (by decide)
      exact attached (first.sound.following_advance there complete) (.inr ⟨spelled, opens⟩)
    · cases listed : c.advance.following tokens with
      | nil => cases key <;> simp [listed, PropertyKey.Opens] at opens
      | cons next after => exact attached listed (.inl (listed ▸ opens))
  · exact absurd async no

-----------------------------------------------------------------------------------------
-- Classes
-----------------------------------------------------------------------------------------

theorem memberDefinition_behaves (isStatic : Bool) (c : Cursor)
    : Parser.Behaves source tokens c (scope.memberDefinition isStatic)
        fun form _ => ∀ extent, (Node.classMember (form extent)).Intact tokens := by
  refine .bind (modifiers_behaves _ c) fun modifiers m => ?_
  refine .bind (propertyKey_behaves deeper m) fun key m' => ?_
  refine .look (.ite (fun _ => ?_) fun _ => .ite (fun _ => .unexpected) fun _ => ?_)
  · refine .bind (functionRest_behaves deeper _ _ m') fun definition _ => ?_
    refine .pure fun _ ⟨intact, same⟩ ⟨named, opens⟩ async extent => .intro (fun given => ?_) ?_
    · exact async (same ▸ given) key opens
    · simpa [Node.children] using ⟨named, intact⟩
  · refine .bind (.after? (assignment_behaves deeper true)) fun value _ => ?_
    refine .skip .consumeSemicolon fun _ _ => ?_
    refine .pure fun _ given ⟨named, _⟩ _ extent => .intro trivial ?_
    simpa [Node.children] using ⟨named, given⟩

theorem memberForm_behaves (c : Cursor)
    : Parser.Behaves source tokens c scope.memberForm
        fun form _ => ∀ extent, (Node.classMember (form extent)).Intact tokens := by
  refine .skip .eat fun _ m => .ite (fun _ => .pure fun _ extent => .intro trivial ?_) fun _ => ?_
  · simp [Node.children]
  refine .look (.ite (fun _ => ?_) fun _ => ?_)
  · refine .skip .advance fun _ m => .bind (block_behaves deeper m) fun block _ => ?_
    refine .pure fun _ intact extent => .intro trivial ?_
    simpa [Node.children] using intact
  · exact .skip .advanceIf fun _ m => memberDefinition_behaves deeper _ m

theorem classMember_behaves (c : Cursor)
    : Parser.Behaves source tokens c scope.classMember
        fun value _ => (Node.classMember value).Intact tokens :=
  .look (.skip .start fun _ m => .bind (memberForm_behaves deeper m) fun _ _ =>
    .skip .extentFrom fun extent _ => .pure fun _ intact => intact extent)

theorem classDef_behaves (c : Cursor)
    : Parser.Behaves source tokens c scope.classDef
        fun value _ => (Node.class value).Intact tokens := by
  refine .skip .expect fun _ m => .look (.skip .advanceIf fun _ _ => ?_)
  refine .bind (.after? (deeper.heritage_behaves _)) fun superClass _ => ?_
  refine .skip .start fun start _ => .skip .expect fun _ _ => ?_
  refine .bind (.itemsUntil (classMember_behaves deeper)) fun members _ => ?_
  refine .skip .spanFrom fun span _ => .pure fun _ all above => .intro trivial ?_
  simpa [Node.children, or_imp, forall_and] using ⟨above, all⟩

end Scope

end ScriptStyle.Grammar
