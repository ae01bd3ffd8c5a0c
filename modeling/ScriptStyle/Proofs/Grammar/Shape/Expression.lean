import ScriptStyle.Proofs.Grammar.Layout.Suffix
import ScriptStyle.Proofs.Grammar.Shape.Basic

/-!
The shape of expressions. An operand adds two nodes to what is a level deeper, and every operator
in front of it or behind it one more; suffixes and operations between operands are links of a
chain and add nothing.
-/

namespace ScriptStyle.Grammar

open Node (Shaped BodyShaped)
open ScriptStyle.Grammar.Parser (Gives)

namespace Scope

variable {scope : Scope} {bound : Nat} (deeper : scope.deeper.Shapes bound)

include deeper

-----------------------------------------------------------------------------------------
-- Functions and classes
-----------------------------------------------------------------------------------------

theorem functionBody_shaped (isGenerator : Bool)
    : Gives (scope.functionBody isGenerator) (BodyShaped bound) := by
  have inside : (scope.inFunction isGenerator).deeper.Shapes bound := deeper
  exact (blockElements_shaped inside).map fun body elements => .asBody elements

theorem functionRest_shaped (isAsync isGenerator : Bool)
    : Gives (scope.functionRest isAsync isGenerator) fun value =>
        (Node.function value).Shaped (bound + 1) := by
  refine .bind (params_shaped deeper) fun params all => ?_
  refine .bind (functionBody_shaped deeper isGenerator) fun body shaped => ?_
  exact .pure ((shaped.mono (Nat.le_succ _)).function all isAsync isGenerator)

theorem functionDef_shaped
    : Gives scope.functionDef fun value => (Node.function value).Shaped (bound + 1) :=
  .bind .any fun isAsync _ => .bind .any fun _ _ => .bind .any fun isGenerator _ =>
    .bind .any fun _ _ => .bind .any fun _ _ => functionRest_shaped deeper isAsync isGenerator

theorem propertyKey_shaped
    : Gives scope.propertyKey fun value => (Node.propertyKey value).Shaped bound := by
  have named {value : PropertyKey} (free : (Node.propertyKey value).children = [])
      : (Node.propertyKey value).Shaped bound :=
    .uncounted rfl rfl (by simp [free])
  refine .bind .any fun cursor _ => ?_
  cases cursor.peek? with
  | none => exact .endOfInput
  | some token =>
      dsimp only
      split
      · exact .bind .any fun _ _ => .pure (named rfl)
      · exact .bind .any fun _ _ => .pure (named rfl)
      · exact .bind .any fun _ _ => .pure (named rfl)
      · exact .bind .any fun _ _ => .pure (named rfl)
      · refine .ite (.bind .any fun _ _ => .bind (deeper.assignment _ true) ?_) .unexpected
        refine fun value shaped => .bind .any fun _ _ => .pure (.uncounted rfl rfl ?_)
        simpa [Node.children] using shaped
      · exact .unexpected

theorem memberDefinition_shaped (isStatic : Bool)
    : Gives (scope.memberDefinition isStatic) fun form =>
        ∀ extent, (Node.classMember (form extent)).Shaped (bound + 1) := by
  refine .bind .any fun modifiers _ => .bind (propertyKey_shaped deeper) fun key named => ?_
  have named := named.mono (Nat.le_succ _)
  refine .bind .any fun cursor _ => .ite ?_ (.ite .unexpected ?_)
  · refine .bind (functionRest_shaped deeper _ _) fun definition shaped => ?_
    refine .pure fun extent => .uncounted rfl rfl ?_
    simpa [Node.children] using ⟨named, shaped⟩
  · refine .bind (deeper.assignment _ true).after? fun value shaped => .bind .any fun _ _ => ?_
    refine .pure fun extent => .uncounted rfl rfl ?_
    simpa [Node.children] using ⟨named, fun value init => (shaped value init).mono (Nat.le_succ _)⟩

theorem memberForm_shaped
    : Gives scope.memberForm fun form =>
        ∀ extent, (Node.classMember (form extent)).Shaped (bound + 1) := by
  refine .bind .any fun eaten _ => .ite (.pure fun extent => .uncounted rfl rfl ?_) ?_
  · simp [Node.children]
  refine .bind .any fun cursor _ => .ite ?_ ?_
  · refine .bind .any fun _ _ => .bind (block_shaped deeper) fun block shaped => ?_
    refine .pure fun extent => .uncounted rfl rfl ?_
    simpa [Node.children] using shaped.mono (Nat.le_succ _)
  · exact .bind .any fun _ _ => memberDefinition_shaped deeper _

theorem classDef_shaped
    : Gives scope.classDef fun value => (Node.class value).Shaped (bound + 1) := by
  have members : Gives scope.classMember fun member =>
      (Node.classMember member).Shaped (bound + 1) :=
    .bind .any fun first _ => .bind .any fun start _ => .bind (memberForm_shaped deeper)
      fun form shaped => .bind .any fun extent _ => .pure (shaped extent)
  refine .bind .any fun _ _ => .bind .any fun cursor _ => .bind .any fun _ _ => ?_
  refine .bind (deeper.heritage _).after? fun superClass above => ?_
  refine .bind .any fun start _ => .bind .any fun _ _ => .bind members.itemsUntil ?_
  refine fun members all => .bind .any fun span _ => .pure (.uncounted rfl rfl ?_)
  simpa [Node.children, or_imp, forall_and]
    using ⟨fun value found => (above value found).mono (Nat.le_succ _), all⟩

-----------------------------------------------------------------------------------------
-- Operands
-----------------------------------------------------------------------------------------

theorem templateLiteral_shaped (isTagged : Bool)
    : Gives (scope.templateLiteral isTagged) fun value =>
        (Node.template value).Shaped (bound + 1) := by
  have substitution : Gives scope.substitution
      (Parser.Round.Holds fun found => (Node.expression found.1).Shaped (bound + 1)) := by
    refine .bind (expression_shaped deeper true) fun value shaped => .bind .any fun found _ => ?_
    obtain ⟨piece, more⟩ := found
    cases more <;> exact .pure shaped
  refine .bind .any fun start _ => .bind .any fun cursor _ => ?_
  cases cursor.peek? with
  | none => exact .unexpected
  | some head =>
      refine .bind .any fun _ _ => .ite (.bind .any fun span _ => .pure (.uncounted rfl rfl ?_)) ?_
      · simp [Node.children]
      · refine .bind substitution.rounds fun others all => .bind .any fun span _ => ?_
        refine .pure (.uncounted rfl rfl ?_)
        intro child among
        obtain ⟨value, listed, rfl⟩ := List.mem_map.mp among
        obtain ⟨entry, found, rfl⟩ := List.mem_map.mp listed
        exact all entry found

theorem arrayElements_shaped
    : Gives scope.arrayElements fun elements =>
        ∀ element ∈ elements, ∀ value ∈ element, (Node.expression value).Shaped (bound + 1) := by
  refine .bind .any fun _ _ => .itemsUntil (.bind .any fun eaten _ => .ite (.pure (by simp)) ?_)
  refine .bind (spreadOrAssignment_shaped deeper) fun value shaped => .bind .any fun cursor _ => ?_
  exact .ite (.bind .any fun _ _ => .pure (by simpa using shaped)) (.pure (by simpa using shaped))

theorem property_shaped
    : Gives scope.property fun value => (Node.property value).Shaped (bound + 1) := by
  refine .bind .any fun eaten _ => .ite ?_ ?_
  · refine .bind (deeper.assignment _ true) fun value shaped => .pure (.uncounted rfl rfl ?_)
    simpa [Node.children] using shaped.mono (Nat.le_succ _)
  refine .bind .any fun modifiers _ => .bind (propertyKey_shaped deeper) fun key named => ?_
  have named := named.mono (Nat.le_succ _)
  refine .bind .any fun cursor _ => .ite ?_ (.ite .unexpected ?_)
  · refine .bind (functionRest_shaped deeper _ _) fun definition shaped => .pure (.uncounted rfl rfl ?_)
    simpa [Node.children] using ⟨named, shaped⟩
  refine .bind .any fun eaten _ => .ite ?_ ?_
  · refine .bind (deeper.assignment _ true) fun value shaped => .pure (.uncounted rfl rfl ?_)
    simpa [Node.children] using ⟨named, shaped.mono (Nat.le_succ _)⟩
  · cases key with
    | identifier name =>
        refine .bind (deeper.assignment _ true).after? fun value shaped => .pure (.uncounted rfl rfl ?_)
        simpa [Node.children] using fun value default => (shaped value default).mono (Nat.le_succ _)
    | privateName | string | number | computed => exact .unexpected

theorem properties_shaped
    : Gives scope.properties fun values =>
        ∀ value ∈ values, (Node.property value).Shaped (bound + 1) :=
  .bind .any fun _ _ => (property_shaped deeper).commaListUntil

theorem wordOperand_shaped (word : String)
    : Gives (scope.wordOperand word) fun form =>
        ∀ span, (Node.expression (form span)).Shaped (bound + 2) := by
  have function : Gives (Expression.function <$> scope.functionDef) fun form =>
      ∀ span, (Node.expression (form span)).Shaped (bound + 2) :=
    (functionDef_shaped deeper).map fun definition shaped span =>
      .counted rfl (by simpa [Node.children, Node.ofExpression] using shaped)
  refine .bind .any fun cursor _ => ?_
  split
  · exact function
  · refine (classDef_shaped deeper).map fun definition shaped span => .counted rfl ?_
    simpa [Node.children, Node.ofExpression] using shaped
  · refine .bind .any fun _ _ => .bind .any fun eaten _ => .ite ?_ ?_
    · refine .bind .any fun _ _ => .pure fun span => .counted rfl ?_
      simp [Node.children, Node.ofExpression]
    · refine (arguments_shaped deeper).map fun arguments all span => .counted rfl ?_
      simpa [Node.children, Node.ofExpression] using all
  iterate 5
    · refine .bind .any fun _ _ => .pure fun span => .counted rfl ?_
      simp [Node.children, Node.ofExpression]
  · refine .ite function (.bind .any fun _ _ => .pure fun span => .counted rfl ?_)
    simp [Node.children, Node.ofExpression]

theorem punctuatorOperand_shaped (text : String)
    : Gives (scope.punctuatorOperand text) fun form =>
        ∀ span, (Node.expression (form span)).Shaped (bound + 2) := by
  unfold punctuatorOperand
  split
  · refine .bind .any fun _ _ => .bind (expression_shaped deeper true) fun inner shaped => ?_
    refine .bind .any fun _ _ => .pure fun span => .counted rfl ?_
    simpa [Node.children, Node.ofExpression] using shaped
  · refine (arrayElements_shaped deeper).map fun elements all span => .counted rfl ?_
    simpa [Node.children, Node.ofExpression]
      using fun value found => all (some value) found value rfl
  · refine (properties_shaped deeper).map fun values all span => .counted rfl ?_
    simpa [Node.children, Node.ofExpression] using all
  · exact .unexpected

theorem operand_shaped
    : Gives scope.operand fun value => (Node.expression value).Shaped (bound + 2) := by
  refine .bind .any fun _ _ => .bind .any fun start _ => .bind .any fun cursor _ => ?_
  cases cursor.peek? with
  | none => exact .unexpected
  | some token =>
      have form : Gives (scope.operandForm token) fun form =>
          ∀ span, (Node.expression (form span)).Shaped (bound + 2) := by
        rw [operandForm]
        split
        · exact wordOperand_shaped deeper _
        iterate 4
          · refine .bind .any fun _ _ => .pure fun span => .counted rfl ?_
            simp [Node.children, Node.ofExpression]
        iterate 2
          · refine (templateLiteral_shaped deeper false).map fun literal shaped span => .counted rfl ?_
            simpa [Node.children, Node.ofExpression] using shaped
        · exact punctuatorOperand_shaped deeper _
        · exact .unexpected
      exact .bind form fun form shaped => .bind .any fun span _ => .pure (shaped span)

-----------------------------------------------------------------------------------------
-- Suffixes and operators
-----------------------------------------------------------------------------------------

omit deeper in
/-- A suffix adds nothing to an operand in which as much nests as in the suffix. -/
theorem Suffix.apply_shaped {object : Expression} {suffix : Suffix} (stop : Nat)
    (first : (Node.expression object).Shaped bound)
    (rest : ∀ node ∈ suffix.nodes, Shaped bound node)
    : (Node.expression (suffix.apply object stop)).Shaped bound := by
  have children := List.forall_mem_cons.mpr ⟨first, rest⟩
  cases suffix <;> exact .uncounted rfl rfl children

theorem suffix?_nests (allowCall : Bool)
    : Gives (scope.suffix? allowCall) fun suffix =>
        ∀ found ∈ suffix, ∀ node ∈ found.nodes, Shaped (bound + 1) node := by
  have indexed : Gives scope.indexRest fun suffix =>
      ∀ node ∈ suffix.nodes, Shaped (bound + 1) node := by
    refine .bind (expression_shaped deeper true) fun key shaped => .bind .any fun _ _ => .pure ?_
    simpa [Suffix.nodes] using shaped
  have called {arguments : List Expression}
      (all : ∀ value ∈ arguments, Shaped (bound + 1) (Node.expression value))
      : ∀ node ∈ (Suffix.call arguments).nodes, Shaped (bound + 1) node := by
    simpa [Suffix.nodes] using all
  refine .bind .any fun cursor _ => ?_
  cases cursor.peek? with
  | none => exact .pure (by simp)
  | some token =>
      dsimp only
      split
      iterate 2
        · refine .bind (templateLiteral_shaped deeper true) fun literal shaped => .pure ?_
          simpa [Suffix.nodes] using shaped
      · split
        · exact .bind .any fun _ _ => .bind .any fun name _ => .pure (by simp [Suffix.nodes])
        · exact .bind .any fun _ _ => indexed.map fun suffix all => by simpa using all
        · refine .ite (.bind (arguments_shaped deeper) fun arguments all => .pure ?_)
            (.pure (by simp))
          simpa using called all
        · refine .ite (.bind .any fun _ _ => .bind .any fun cursor _ => .ite ?_ ?_)
            (.pure (by simp))
          · refine .bind (arguments_shaped deeper) fun arguments all => .pure ?_
            simpa using called all
          · refine .bind .any fun eaten _ => .ite (indexed.map fun suffix all => ?_) ?_
            · simpa using all
            · exact .bind .any fun name _ => .pure (by simp [Suffix.nodes])
        · exact .pure (by simp)
      · exact .pure (by simp)

theorem withSuffixes_shaped (allowCall : Bool) {object : Expression} {larger : Nat}
    (room : bound < larger) (shaped : (Node.expression object).Shaped larger)
    : Gives (scope.withSuffixes allowCall object) fun value =>
        (Node.expression value).Shaped larger := by
  have round : Gives (scope.suffixRound allowCall)
      (Parser.Round.Holds fun next => ∀ node ∈ next.1.nodes, Shaped (bound + 1) node) := by
    refine .bind (suffix?_nests deeper allowCall) fun found all => ?_
    cases found with
    | none => exact .pure trivial
    | some suffix => exact .bind .any fun cursor _ => .pure (all suffix rfl)
  refine .bind round.rounds fun suffixes all => .pure ?_
  induction suffixes generalizing object with
  | nil => exact shaped
  | cons next others ih =>
      obtain ⟨here, later⟩ := List.forall_mem_cons.mp all
      refine ih (Suffix.apply_shaped next.2 shaped fun node among => ?_) later
      exact (here node among).mono room

theorem construct_shaped
    : Gives scope.construct fun value => (Node.expression value).Shaped (bound + 3) := by
  have callee : Gives scope.callee fun value => (Node.expression value).Shaped (bound + 2) := by
    refine .bind .any fun start _ => .bind .any fun cursor _ => .ite ?_ ?_
    · exact .bind (deeper.construct _) fun object shaped =>
        withSuffixes_shaped deeper false (by omega) (shaped.mono (by omega))
    · exact .bind (operand_shaped deeper) fun object shaped =>
        withSuffixes_shaped deeper false (by omega) shaped
  have arguments : Gives scope.constructArguments fun values =>
      ∀ value ∈ values, (Node.expression value).Shaped (bound + 2) := by
    refine .bind .any fun cursor _ => .ite ?_ (.pure (by simp))
    exact (arguments_shaped deeper).mono fun _ all value among => (all value among).mono (by omega)
  refine .bind .any fun start _ => .bind .any fun _ _ => .bind .any fun eaten _ => .ite ?_ ?_
  · refine .bind .any fun _ _ => .bind .any fun span _ => .pure (.counted rfl ?_)
    simp [Node.children, Node.ofExpression]
  · refine .bind callee fun object shaped => .bind arguments fun values all => ?_
    refine .bind .any fun span _ => .pure (.counted rfl ?_)
    simpa [Node.children, Node.ofExpression] using ⟨shaped, all⟩

theorem leftHandSide_shaped
    : Gives scope.leftHandSide fun value => (Node.expression value).Shaped (bound + 3) := by
  refine .bind .any fun start _ => .bind .any fun cursor _ => .ite ?_ ?_
  · exact .bind (construct_shaped deeper) fun object shaped =>
      withSuffixes_shaped deeper true (by omega) shaped
  · exact .bind (operand_shaped deeper) fun object shaped =>
      withSuffixes_shaped deeper true (by omega) (shaped.mono (by omega))

theorem unaryNode_shaped
    : Gives scope.unaryNode fun value => (Node.expression value).Shaped (bound + 4) := by
  have postfixed : Gives scope.postfixed fun value =>
      (Node.expression value).Shaped (bound + 4) := by
    refine .bind .any fun start _ => .bind (leftHandSide_shaped deeper) fun operand shaped => ?_
    refine .bind .any fun cursor _ => .ite ?_ (.pure (shaped.mono (by omega)))
    refine .bind .any fun _ _ => .bind .any fun span _ => .pure (.counted rfl ?_)
    simpa [Node.children, Node.ofExpression] using shaped
  refine .bind .any fun start _ => .bind .any fun cursor _ => ?_
  cases cursor.peek? with
  | none => exact .unexpected
  | some token =>
      refine .ite ?_ (.ite ?_ postfixed)
      all_goals
        refine .bind .any fun _ _ => .bind (deeper.unary _) fun operand shaped => ?_
        refine .bind .any fun span _ => .pure (.counted rfl ?_)
        simpa [Node.children, Node.ofExpression] using shaped.mono (Nat.le_add_right _ 3)

/-- The operations of a chain add nothing to its operands. -/
theorem binary_shaped (allowIn : Bool)
    : Gives (scope.binary allowIn) fun value => (Node.expression value).Shaped bound := by
  have operation : Gives (scope.operation allowIn)
      (Parser.Round.Holds fun next => (Node.expression next.2).Shaped bound) := by
    refine .bind .any fun _ _ => .bind .any fun cursor _ => ?_
    cases cursor.peek?.bind (binaryOperator? allowIn) with
    | none => exact .pure trivial
    | some symbol =>
        exact .bind .any fun _ _ => .bind .any fun _ _ => .bind (deeper.unary _)
          fun operand shaped => .pure shaped
  refine .bind .any fun _ _ => .bind (deeper.unary _) fun first shaped => ?_
  refine .bind operation.rounds fun others all => .pure ?_
  have tree : (OperatorTree.ofChain first others).HasOperands
      fun value => (Node.expression value).Shaped bound := .ofChain shaped all
  exact tree.toExpression_shaped

theorem conditional_shaped (allowIn : Bool)
    : Gives (scope.conditional allowIn) fun value =>
        (Node.expression value).Shaped (bound + 1) := by
  refine .bind .any fun start _ => .bind (binary_shaped deeper allowIn) fun test shaped => ?_
  refine .bind .any fun eaten _ => .ite ?_ (.pure (shaped.mono (Nat.le_succ _)))
  refine .bind (deeper.assignment _ true) fun consequent shaped' => .bind .any fun _ _ => ?_
  refine .bind (deeper.assignment _ allowIn) fun alternate shaped'' => .bind .any fun span _ => ?_
  refine .pure (.counted rfl ?_)
  simpa [Node.children, Node.ofExpression] using ⟨shaped, shaped', shaped''⟩

theorem arrow_shaped (allowIn isAsync : Bool)
    : Gives (scope.arrow allowIn isAsync) fun value =>
        (Node.expression value).Shaped (bound + 2) := by
  have params : Gives scope.arrowParams fun values =>
      ∀ value ∈ values, (Node.expression value).Shaped (bound + 1) :=
    .bind .any fun cursor _ => .ite (params_shaped deeper)
      (identifier_shaped.map fun value shaped => List.forall_mem_singleton.mpr shaped)
  refine .bind .any fun start _ => .bind .any fun _ _ => .bind params fun values all => ?_
  refine .bind .any fun _ _ => .bind .any fun cursor _ => .ite ?_ ?_
  · refine .bind (functionBody_shaped deeper false) fun body shaped => ?_
    refine .bind .any fun _ _ => .bind .any fun span _ => .pure ?_
    exact (shaped.mono (Nat.le_succ _)).arrowBlock all isAsync span
  · refine .bind (deeper.assignment _ allowIn) fun body shaped => .bind .any fun span _ => ?_
    refine .pure (.counted rfl ?_)
    simpa [Node.children, Node.ofExpression, or_imp, forall_and]
      using ⟨all, shaped.mono (Nat.le_succ _)⟩

theorem assignmentNode_shaped (allowIn : Bool)
    : Gives (scope.assignmentNode allowIn) fun value =>
        (Node.expression value).Shaped (bound + 2) := by
  have yielded : Gives (scope.yielded allowIn) fun value =>
      (Node.expression value).Shaped (bound + 2) := by
    refine .bind .any fun start _ => .bind .any fun _ _ => .bind .any fun delegates _ => ?_
    refine .bind .any fun cursor _ => .bind (deeper.assignment _ allowIn).onlyIf ?_
    refine fun operand shaped => .bind .any fun span _ => .pure (.counted rfl ?_)
    simpa [Node.children, Node.ofExpression]
      using fun value found => (shaped value found).mono (Nat.le_succ _)
  refine .bind .any fun cursor _ => .ite (arrow_shaped deeper _ _) (.ite yielded ?_)
  refine .bind .any fun start _ => .bind (conditional_shaped deeper allowIn) fun target shaped => ?_
  refine .bind .any fun cursor _ => .ite ?_ (.pure (shaped.mono (Nat.le_succ _)))
  refine .bind .any fun _ _ => .bind (deeper.assignment _ allowIn) fun value shaped' => ?_
  refine .bind .any fun span _ => .pure (.counted rfl ?_)
  simpa [Node.children, Node.ofExpression] using ⟨shaped, shaped'.mono (Nat.le_succ _)⟩

end Scope

end ScriptStyle.Grammar
