import ScriptStyle.Proofs.Grammar.Runs
import ScriptStyle.Proofs.Tree.Shape

/-!
What parsers give whatever they read, and the shape of what the constructs of a level give: how far
it nests, and how the statements in it are marked. Operations between two operands are links of a
chain, so that a tree of operators nests no deeper than the operands in it.
-/

namespace ScriptStyle.Grammar

open Node (Shaped)

-----------------------------------------------------------------------------------------
-- What parsers give
-----------------------------------------------------------------------------------------

namespace Parser

/-- Whatever a parser gives has a property. -/
def Gives {α : Type} (p : Parser α) (P : α → Prop) : Prop :=
  ∀ c a c', p c = .ok (a, c') → P a

/-- The item of a round has a property, if there is one. -/
def Round.Holds {α : Type} (P : α → Prop) : Round α → Prop
  | .stop => True
  | .last item | .more item => P item

namespace Gives

variable {α β : Type} {p q : Parser α} {P : α → Prop} {Q : β → Prop}

theorem any : Gives p fun _ => True :=
  fun _ _ _ _ => trivial

theorem bind {f : α → Parser β} (first : Gives p P) (rest : ∀ a, P a → Gives (f a) Q)
    : Gives (p >>= f) Q := by
  intro c b c' run
  obtain ⟨a, m, run, next⟩ := bind_ok.mp run
  exact rest a (first _ _ _ run) _ _ _ next

theorem pure {a : α} (holds : P a)
    : Gives (pure a) P := by
  intro c b c' run
  obtain ⟨rfl, -⟩ := pure_ok.mp run
  exact holds

theorem map {f : α → β} (given : Gives p P) (image : ∀ a, P a → Q (f a))
    : Gives (f <$> p) Q := by
  intro c b c' run
  obtain ⟨a, made, rfl⟩ := map_ok.mp run
  exact image a (given _ _ _ made)

theorem ite {condition : Prop} [Decidable condition] (yes : Gives p P) (no : Gives q P)
    : Gives (if condition then p else q) P := by
  split
  · exact yes
  · exact no

theorem unexpected {expected : String}
    : Gives (Parser.unexpected expected) P := by
  intro c a c' run
  cases unexpected_ok.mp run

theorem endOfInput {expected : String}
    : Gives (Parser.endOfInput expected) P := by
  intro c a c' run
  cases endOfInput_ok.mp run

theorem mono {P' : α → Prop} (given : Gives p P) (weaker : ∀ a, P a → P' a)
    : Gives p P' :=
  fun c a c' run => weaker a (given c a c' run)

theorem onlyIf {condition : Bool} (given : Gives p P)
    : Gives (Parser.onlyIf condition p) fun found => ∀ a ∈ found, P a := by
  refine .ite (given.map fun a holds => ?_) (.pure (by simp))
  simpa using holds

theorem after? {text : String} (given : Gives p P)
    : Gives (Parser.after? text p) fun found => ∀ a ∈ found, P a :=
  .bind .any fun _ _ => given.onlyIf

theorem rounds {round : Parser (Round α)} (each : Gives round (Round.Holds P))
    : Gives (Parser.rounds round) fun items => ∀ item ∈ items, P item := by
  have upTo (fuel : Nat) : Gives (roundsUpTo round fuel) fun items => ∀ item ∈ items, P item := by
    induction fuel with
    | zero => exact .pure (by simp)
    | succ fuel ih =>
        refine .bind each fun found holds => ?_
        cases found with
        | stop => exact .pure (by simp)
        | last item => exact .pure (List.forall_mem_singleton.mpr holds)
        | more item =>
            exact .bind ih fun others all => .pure (List.forall_mem_cons.mpr ⟨holds, all⟩)
  exact fun c => upTo _ c

theorem unlessClosed {closing : String} {round : Parser (Round α)}
    (each : Gives round (Round.Holds P))
    : Gives (Parser.unlessClosed closing round) (Round.Holds P) :=
  .bind .any fun _ _ => .ite (.pure trivial) each

theorem itemsUntil {closing : String} (given : Gives p P)
    : Gives (Parser.itemsUntil closing p) fun items => ∀ item ∈ items, P item :=
  .bind (.rounds (.unlessClosed (given.map fun _ holds => holds))) fun _ all =>
    .bind .any fun _ _ => .pure all

theorem itemThenComma (given : Gives p P)
    : Gives (Parser.itemThenComma p) (Round.Holds P) :=
  .bind given fun _ holds => .bind .any fun _ _ => .ite (.pure holds) (.pure holds)

theorem commaSeparated (given : Gives p P)
    : Gives (Parser.commaSeparated p) fun items => ∀ item ∈ items, P item :=
  .rounds given.itemThenComma

theorem commaListUntil {closing : String} (given : Gives p P)
    : Gives (Parser.commaListUntil closing p) fun items => ∀ item ∈ items, P item :=
  .bind (.rounds (.unlessClosed given.itemThenComma)) fun _ all =>
    .bind .any fun _ _ => .pure all

end Gives

end Parser

open ScriptStyle.Grammar.Parser (Gives)

-----------------------------------------------------------------------------------------
-- Trees of operators
-----------------------------------------------------------------------------------------

namespace OperatorTree

/-- All operands of a tree have a property. -/
def HasOperands {α : Type} (P : α → Prop) : OperatorTree α → Prop
  | operand value => P value
  | node left _ right => left.HasOperands P ∧ right.HasOperands P

namespace HasOperands

variable {α : Type} {P : α → Prop} {tree : OperatorTree α}

theorem push {value : α} (all : tree.HasOperands P) (symbol : String) (last : P value)
    : (tree.push symbol value).HasOperands P := by
  induction tree with
  | operand first => exact ⟨all, last⟩
  | node left before right _ ih =>
      rw [OperatorTree.push]
      split
      · exact ⟨all.1, ih all.2⟩
      · exact ⟨all, last⟩

theorem ofChain {first : α} {others : List (String × α)} (one : P first)
    (all : ∀ next ∈ others, P next.2)
    : (ofChain first others).HasOperands P := by
  suffices ∀ tree : OperatorTree α, tree.HasOperands P →
      (others.foldl (fun tree next => tree.push next.1 next.2) tree).HasOperands P from
    this (operand first) one
  induction others with
  | nil => exact fun _ holds => holds
  | cons next others ih =>
      obtain ⟨here, later⟩ := List.forall_mem_cons.mp all
      exact fun tree holds => ih later _ (holds.push next.1 here)

/-- Operations are links of chains, so that they add nothing to what nests in their operands. -/
theorem toExpression_shaped {bound : Nat} {tree : OperatorTree Expression}
    (all : tree.HasOperands fun value => (Node.expression value).Shaped bound)
    : (Node.expression tree.toExpression).Shaped bound := by
  induction tree with
  | operand value => exact all
  | node left symbol right ihl ihr =>
      have second := List.forall_mem_singleton.mpr (ihr all.2)
      exact .uncounted rfl rfl (List.forall_mem_cons.mpr ⟨ihl all.1, second⟩)

end HasOperands

end OperatorTree

-----------------------------------------------------------------------------------------
-- Levels
-----------------------------------------------------------------------------------------

/-- What the constructs of a level give nests in a bound, and is marked only below its root. -/
structure Level.Shapes (bound : Nat) (level : Level) : Prop where
  statement (inGenerator : Bool)
    : Gives (level.statement inGenerator) fun value => (Node.statement value).Shaped bound
  assignment (inGenerator allowIn : Bool)
    : Gives (level.assignment inGenerator allowIn) fun value =>
        (Node.expression value).Shaped bound
  unary (inGenerator : Bool)
    : Gives (level.unary inGenerator) fun value => (Node.expression value).Shaped bound
  heritage (inGenerator : Bool)
    : Gives (level.heritage inGenerator) fun value => (Node.expression value).Shaped bound
  construct (inGenerator : Bool)
    : Gives (level.construct inGenerator) fun value => (Node.expression value).Shaped bound

theorem identifier_shaped {bound : Nat}
    : Gives identifier fun value => (Node.expression value).Shaped (bound + 1) := by
  refine .bind .any fun cursor _ => ?_
  cases cursor.peek? with
  | none => exact .unexpected
  | some token =>
      refine .ite (.bind .any fun _ _ => .pure (.counted rfl ?_)) .unexpected
      simp [Node.children, Node.ofExpression]

namespace Scope

variable {scope : Scope} {bound : Nat} (deeper : scope.deeper.Shapes bound)

include deeper

theorem expression_shaped (allowIn : Bool)
    : Gives (scope.expression allowIn) fun value =>
        (Node.expression value).Shaped (bound + 1) := by
  refine .bind .any fun start _ => .bind (deeper.assignment _ allowIn).commaSeparated ?_
  intro items all
  split
  · exact .pure ((all _ (by simp)).mono (Nat.le_succ _))
  · refine .bind .any fun span _ => .pure (.counted rfl ?_)
    simpa [Node.children, Node.ofExpression] using all

theorem parenthesized_shaped
    : Gives scope.parenthesized fun value => (Node.expression value).Shaped (bound + 1) :=
  .bind .any fun _ _ => .bind (expression_shaped deeper true) fun _ shaped =>
    .bind .any fun _ _ => .pure shaped

theorem spreadOrAssignment_shaped
    : Gives scope.spreadOrAssignment fun value =>
        (Node.expression value).Shaped (bound + 1) := by
  refine .bind .any fun cursor _ => .ite ?_ ?_
  · refine .bind .any fun start _ => .bind .any fun _ _ => .bind (deeper.assignment _ true) ?_
    refine fun operand shaped => .bind .any fun span _ => .pure (.counted rfl ?_)
    simpa [Node.children, Node.ofExpression] using shaped
  · exact (deeper.assignment _ true).mono fun _ shaped => shaped.mono (Nat.le_succ _)

theorem arguments_shaped
    : Gives scope.arguments fun values =>
        ∀ value ∈ values, (Node.expression value).Shaped (bound + 1) :=
  .bind .any fun _ _ => (spreadOrAssignment_shaped deeper).commaListUntil

theorem params_shaped
    : Gives scope.params fun values =>
        ∀ value ∈ values, (Node.expression value).Shaped (bound + 1) :=
  .bind .any fun _ _ => (spreadOrAssignment_shaped deeper).commaListUntil

theorem blockElements_shaped
    : Gives scope.block fun value =>
        ∀ element ∈ value.body, (Node.statement element).Shaped bound := by
  refine .bind .any fun start _ => .bind .any fun _ _ => .bind (deeper.statement _).itemsUntil ?_
  exact fun body all => .bind .any fun span _ => .pure all

theorem block_shaped
    : Gives scope.block fun value => (Node.block value).Shaped bound :=
  (blockElements_shaped deeper).mono fun _ elements => .of_block elements

end Scope

end ScriptStyle.Grammar
