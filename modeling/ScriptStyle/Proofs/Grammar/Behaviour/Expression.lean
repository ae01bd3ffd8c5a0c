import ScriptStyle.Proofs.Grammar.Behaviour.Function
import ScriptStyle.Proofs.Grammar.Layout.Suffix

/-!
What the parsers of expressions do. An operator behind an operand stands on the line of its last
token, the operand of `yield` begins on the line of that word unless it is delegated to, and the
parameters of an asynchronous arrow function begin on the line of the word in front of them.
-/

namespace ScriptStyle.Grammar

open Node (Intact)
open ScriptStyle.Grammar.Parser

variable {source : String} {tokens : List Token}

namespace Scope

variable {scope : Scope} (deeper : scope.deeper.Behaves source tokens)

include deeper

-----------------------------------------------------------------------------------------
-- Templates, arrays and objects
-----------------------------------------------------------------------------------------

omit deeper in
theorem templatePiece_behaves (c : Cursor)
    : Parser.Behaves source tokens c templatePiece fun _ _ => True := by
  refine .look ?_
  cases c.peek? with
  | none => exact .unexpected
  | some piece =>
      refine .ite (fun _ => ?_) fun _ => .ite (fun _ => ?_) fun _ => .unexpected
      all_goals exact .skip .advance fun _ _ => .pure fun _ => trivial

theorem templateLiteral_behaves (isTagged : Bool) (c : Cursor)
    : Parser.Behaves source tokens c (scope.templateLiteral isTagged)
        fun value _ => (Node.template value).Intact tokens := by
  have substitution (c : Cursor)
      : Parser.Behaves source tokens c scope.substitution fun found _ =>
          found.Holds fun entry => (Node.expression entry.1).Intact tokens := by
    refine .bind (expression_behaves deeper true c) fun value m => ?_
    refine .skip (templatePiece_behaves m) fun piece _ => .pure fun _ intact => ?_
    split <;> exact intact
  refine .skip .start fun start m => .look ?_
  cases m.peek? with
  | none => exact .unexpected
  | some head =>
      refine .skip .advance fun _ m => .ite (fun _ => ?_) fun _ => ?_
      · refine .skip .spanFrom fun span _ => .pure fun _ => .intro trivial ?_
        simp [Node.children]
      · refine .bind (.rounds substitution) fun others _ => ?_
        refine .skip .spanFrom fun span _ => .pure fun _ all => .intro trivial ?_
        intro child among
        obtain ⟨value, listed, rfl⟩ := List.mem_map.mp among
        obtain ⟨entry, found, rfl⟩ := List.mem_map.mp listed
        exact all entry found

theorem arrayElements_behaves (c : Cursor)
    : Parser.Behaves source tokens c scope.arrayElements fun elements _ =>
        ∀ element ∈ elements, ∀ value ∈ element, (Node.expression value).Intact tokens := by
  refine .skip .advance fun _ _ => .itemsUntil fun c => .skip .eat fun _ m => ?_
  refine .ite (fun _ => .pure fun _ => by simp) fun _ => ?_
  refine .bind (spreadOrAssignment_behaves deeper m) fun value _ => .look (.ite (fun _ => ?_) ?_)
  · exact .skip .expect fun _ _ => .pure fun _ intact => by simpa using intact
  · exact fun _ => .pure fun _ intact => by simpa using intact

theorem property_behaves (c : Cursor)
    : Parser.Behaves source tokens c scope.property
        fun value _ => (Node.property value).Intact tokens := by
  refine .skip .eat fun _ m => .ite (fun _ => ?_) fun _ => ?_
  · refine .bind (assignment_behaves deeper true m) fun value _ => ?_
    refine .pure fun _ intact => .intro trivial ?_
    simpa [Node.children] using intact
  refine .bind (modifiers_behaves _ m) fun modifiers m' => ?_
  refine .bind (propertyKey_behaves deeper m') fun key m'' => ?_
  refine .look (.ite (fun _ => ?_) fun _ => .ite (fun _ => .unexpected) fun _ => ?_)
  · refine .bind (functionRest_behaves deeper _ _ m'') fun definition _ => ?_
    refine .pure fun _ whole read async => .intro (fun given => ?_) ?_
    · exact async (whole.2 ▸ given) key read.2
    · simpa [Node.children] using ⟨read.1, whole.1⟩
  refine .skip .eat fun _ m => .ite (fun _ => ?_) fun _ => ?_
  · refine .bind (assignment_behaves deeper true m) fun value _ => ?_
    refine .pure fun _ intact read _ => .intro trivial ?_
    simpa [Node.children] using ⟨read.1, intact⟩
  · cases key with
    | identifier name =>
        refine .bind (.after? (assignment_behaves deeper true)) fun default _ => ?_
        refine .pure fun _ given _ _ => .intro trivial ?_
        simpa [Node.children] using given
    | privateName | string | number | computed => exact .unexpected

theorem properties_behaves (c : Cursor)
    : Parser.Behaves source tokens c scope.properties
        fun values _ => ∀ value ∈ values, (Node.property value).Intact tokens :=
  .skip .advance fun _ _ => .commaListUntil (property_behaves deeper)

-----------------------------------------------------------------------------------------
-- Operands
-----------------------------------------------------------------------------------------

theorem wordOperand_behaves {token : Token} (c : Cursor) (here : c.peek? = some token)
    : Parser.Behaves source tokens c (scope.wordOperand token.text) fun form _ =>
        ∀ span : Span, span.start = c.offset → (Node.expression (form span)).Intact tokens := by
  have function (inLine : c.sees "async" → c.newlineAt 1 = false)
      : Parser.Behaves source tokens c (Expression.function <$> scope.functionDef) fun form _ =>
          ∀ span : Span, span.start = c.offset → (Node.expression (form span)).Intact tokens :=
    (functionDef_behaves deeper c inLine).map fun definition _ ⟨intact, async⟩ span start =>
      .intro (fun given => start ▸ async given)
        (by simpa [Node.children, Node.ofExpression] using intact)
  refine .look ?_
  generalize text : token.text = word
  split
  · refine function fun async => ?_
    simp [Cursor.sees, here, Token.isTerminal, text] at async
  · refine (classDef_behaves deeper c).map fun definition _ intact span _ => .intro trivial ?_
    simpa [Node.children, Node.ofExpression] using intact
  · refine .skip .advance fun _ _ => .skip .eat fun _ m => .ite (fun _ => ?_) fun _ => ?_
    · refine .skip (identifier_behaves m) fun _ _ => .pure fun _ span _ => .intro trivial ?_
      simp [Node.children, Node.ofExpression]
    · refine (arguments_behaves deeper m).map fun arguments _ all span _ => .intro trivial ?_
      simpa [Node.children, Node.ofExpression] using all
  iterate 5
    · refine .skip .advance fun _ _ => .pure fun _ span _ => .intro trivial ?_
      simp [Node.children, Node.ofExpression]
  · refine .ite (fun declares => function fun _ => ?_) fun _ => ?_
    · simp only [Bool.and_eq_true, Bool.not_eq_true'] at declares
      exact declares.2
    · refine .skip .advance fun _ _ => .pure fun _ span _ => .intro trivial ?_
      simp [Node.children, Node.ofExpression]

theorem punctuatorOperand_behaves (text : String) (c : Cursor)
    : Parser.Behaves source tokens c (scope.punctuatorOperand text) fun form _ =>
        ∀ span, (Node.expression (form span)).Intact tokens := by
  unfold punctuatorOperand
  split
  · refine .skip .advance fun _ m => .bind (expression_behaves deeper true m) ?_
    refine fun inner _ => .skip .expect fun _ _ => .pure fun _ intact span => ?_
    exact .intro trivial (by simpa [Node.children, Node.ofExpression] using intact)
  · refine (arrayElements_behaves deeper c).map fun elements _ all span => .intro trivial ?_
    simpa [Node.children, Node.ofExpression]
      using fun value found => all (some value) found value rfl
  · refine (properties_behaves deeper c).map fun values _ all span => .intro trivial ?_
    simpa [Node.children, Node.ofExpression] using all
  · exact .unexpected

theorem operandForm_behaves {token : Token} (c : Cursor) (here : c.peek? = some token)
    : Parser.Behaves source tokens c (scope.operandForm token) fun form _ =>
        ∀ span : Span, span.start = c.offset → (Node.expression (form span)).Intact tokens := by
  rw [operandForm]
  split
  · exact wordOperand_behaves deeper c here
  iterate 4
    · refine .skip .advance fun _ _ => .pure fun _ span _ => .intro trivial ?_
      simp [Node.children, Node.ofExpression]
  iterate 2
    · refine (templateLiteral_behaves deeper false c).map fun _ _ intact span _ => .intro trivial ?_
      simpa [Node.children, Node.ofExpression] using intact
  · exact (punctuatorOperand_behaves deeper _ c).mono fun _ _ intact span _ => intact span
  · exact .unexpected

theorem operand_behaves (c : Cursor)
    : Parser.Behaves source tokens c scope.operand
        fun value _ => (Node.expression value).Intact tokens := by
  refine .skip .rereadAt fun _ m => .skip .start fun start m' {begins _} => .look ?_
  obtain ⟨token, here, rfl, rfl⟩ := start_ok.mp begins
  rw [here]
  refine .bind (operandForm_behaves deeper m here) fun form _ => ?_
  refine .skip .spanFrom fun span _ {spans _} => .pure fun _ intact => intact span ?_
  obtain ⟨rfl, -⟩ := spanFrom_ok.mp spans
  exact (Cursor.Sound.offset_eq here).symm

-----------------------------------------------------------------------------------------
-- Suffixes and constructions
-----------------------------------------------------------------------------------------

omit deeper in
/-- A suffix does not restrict lines. -/
theorem Suffix.apply_intact {object : Expression} {suffix : Suffix} (stop : Nat)
    (first : (Node.expression object).Intact tokens)
    (rest : ∀ node ∈ suffix.nodes, node.Intact tokens)
    : (Node.expression (suffix.apply object stop)).Intact tokens := by
  have children := List.forall_mem_cons.mpr ⟨first, rest⟩
  cases suffix <;> exact .intro trivial children

omit deeper in
theorem Suffix.foldl_intact {object : Expression} {suffixes : List (Suffix × Nat)}
    (first : (Node.expression object).Intact tokens)
    (rest : ∀ next ∈ suffixes, ∀ node ∈ next.1.nodes, node.Intact tokens)
    : (Node.expression (suffixes.foldl (fun object next => next.1.apply object next.2)
        object)).Intact tokens := by
  induction suffixes generalizing object with
  | nil => exact first
  | cons next others ih =>
      obtain ⟨here, later⟩ := List.forall_mem_cons.mp rest
      exact ih (Suffix.apply_intact next.2 first here) later

omit deeper in
theorem memberName_behaves (c : Cursor)
    : Parser.Behaves source tokens c memberName fun _ _ => True := by
  refine .look ?_
  cases c.peek? with
  | none => exact .unexpected
  | some token =>
      exact .ite (fun _ => .skip .advance fun _ _ => .pure fun _ => trivial) fun _ => .unexpected

theorem suffix?_behaves (allowCall : Bool) (c : Cursor)
    : Parser.Behaves source tokens c (scope.suffix? allowCall) fun suffix _ =>
        ∀ found ∈ suffix, ∀ node ∈ found.nodes, node.Intact tokens := by
  have indexed (c : Cursor)
      : Parser.Behaves source tokens c (some <$> scope.indexRest) fun suffix _ =>
          ∀ found ∈ suffix, ∀ node ∈ found.nodes, node.Intact tokens := by
    have rest : Parser.Behaves source tokens c scope.indexRest fun suffix _ =>
        ∀ node ∈ suffix.nodes, node.Intact tokens := by
      refine .bind (expression_behaves deeper true c) fun key _ => ?_
      refine .skip .expect fun _ _ => .pure fun _ intact => ?_
      simpa [Suffix.nodes] using intact
    exact rest.map fun suffix _ all => by simpa using all
  have called (c : Cursor)
      : Parser.Behaves source tokens c (do
          let arguments ← scope.arguments
          pure (some (Suffix.call arguments)))
        fun suffix _ => ∀ found ∈ suffix, ∀ node ∈ found.nodes, node.Intact tokens := by
    refine .bind (arguments_behaves deeper c) fun arguments _ => .pure fun _ all => ?_
    simpa [Suffix.nodes] using all
  have accessed (c : Cursor)
      : Parser.Behaves source tokens c (do
          let name ← memberName
          pure (some (Suffix.member name)))
        fun suffix _ => ∀ found ∈ suffix, ∀ node ∈ found.nodes, node.Intact tokens :=
    .skip (memberName_behaves c) fun _ _ => .pure fun _ => by simp [Suffix.nodes]
  refine .look ?_
  cases c.peek? with
  | none => exact .pure fun _ => by simp
  | some token =>
      dsimp only
      split
      iterate 2
        · refine .bind (templateLiteral_behaves deeper true c) fun literal _ => ?_
          exact .pure fun _ intact => by simpa [Suffix.nodes] using intact
      · split
        · exact .skip .advance fun _ m => accessed m
        · exact .skip .advance fun _ m => indexed m
        · exact .ite (fun _ => called c) fun _ => .pure fun _ => by simp
        · refine .ite (fun _ => .skip .advance fun _ m => .look ?_) fun _ => .pure fun _ => by simp
          refine .ite (fun _ => called m) fun _ => .skip .eat fun _ m => ?_
          exact .ite (fun _ => indexed m) fun _ => accessed m
        · exact .pure fun _ => by simp
      · exact .pure fun _ => by simp

theorem withSuffixes_behaves (allowCall : Bool) {object : Expression} (c : Cursor)
    : Parser.Behaves source tokens c (scope.withSuffixes allowCall object) fun value _ =>
        (Node.expression object).Intact tokens → (Node.expression value).Intact tokens := by
  have round (c : Cursor)
      : Parser.Behaves source tokens c (scope.suffixRound allowCall) fun found _ =>
          found.Holds fun next => ∀ node ∈ next.1.nodes, node.Intact tokens := by
    refine .bind (suffix?_behaves deeper allowCall c) fun found _ => ?_
    cases found with
    | none => exact .pure fun _ _ => trivial
    | some suffix => exact .look (.pure fun _ all => all suffix rfl)
  refine .bind (.rounds round) fun suffixes _ => .pure fun _ all intact => ?_
  exact Suffix.foldl_intact intact all

theorem construct_behaves (c : Cursor)
    : Parser.Behaves source tokens c scope.construct
        fun value _ => (Node.expression value).Intact tokens := by
  have callee (c : Cursor)
      : Parser.Behaves source tokens c scope.callee
          fun value _ => (Node.expression value).Intact tokens := by
    refine .skip .start fun start m => .look (.ite (fun _ => ?_) fun _ => ?_)
    · exact .bind (deeper.construct_behaves _ m) fun _ m => withSuffixes_behaves deeper false m
    · exact .bind (operand_behaves deeper m) fun _ m => withSuffixes_behaves deeper false m
  have arguments (c : Cursor)
      : Parser.Behaves source tokens c scope.constructArguments
          fun values _ => ∀ value ∈ values, (Node.expression value).Intact tokens :=
    .look (.ite (fun _ => arguments_behaves deeper c) fun _ => .pure fun _ => by simp)
  refine .skip .start fun start _ => .skip .advance fun _ _ => .skip .eat ?_
  refine fun _ m => .ite (fun _ => ?_) fun _ => ?_
  · refine .skip (identifier_behaves m) fun _ _ => .skip .spanFrom fun span _ => ?_
    exact .pure fun _ => .intro trivial (by simp [Node.children, Node.ofExpression])
  · refine .bind (callee m) fun object m => .bind (arguments m) fun values _ => ?_
    refine .skip .spanFrom fun span _ => .pure fun _ all intact => .intro trivial ?_
    simpa [Node.children, Node.ofExpression] using ⟨intact, all⟩

theorem leftHandSide_behaves (c : Cursor)
    : Parser.Behaves source tokens c scope.leftHandSide
        fun value _ => (Node.expression value).Intact tokens := by
  refine .skip .start fun start m => .look (.ite (fun _ => ?_) fun _ => ?_)
  · exact .bind (construct_behaves deeper m) fun _ m => withSuffixes_behaves deeper true m
  · exact .bind (operand_behaves deeper m) fun _ m => withSuffixes_behaves deeper true m

-----------------------------------------------------------------------------------------
-- Operators
-----------------------------------------------------------------------------------------

theorem postfixed_behaves (c : Cursor)
    : Parser.Behaves source tokens c scope.postfixed
        fun value _ => (Node.expression value).Intact tokens := by
  refine .skip .start fun start _ {begins _} => ?_
  obtain ⟨token, here, rfl, rfl⟩ := start_ok.mp begins
  refine .bind (leftHandSide_behaves deeper c) fun operand m {_ first} => .look ?_
  refine .ite (fun operator => ?_) fun _ => .pure fun _ intact => intact
  obtain ⟨symbol, there, isOperator⟩ := Option.any_eq_true .. |>.mp operator
  refine .skip .advance fun _ m' {past _} => .skip .spanFrom fun span _ {spans _} => ?_
  refine .pure fun complete intact => .intro (fun _ => ⟨symbol, ?_, ?_⟩) ?_
  · obtain rfl := advance_ok.mp past
    obtain ⟨-, rfl⟩ := spanFrom_ok.mp spans
    exact first.sound.mem_of_advance there complete
  · obtain rfl := advance_ok.mp past
    obtain ⟨rfl, -⟩ := spanFrom_ok.mp spans
    have taken := first.sound.offset_lt_advance there
    have begins := Cursor.Sound.offset_eq here
    have onward := first.offset_le
    simp only [Bool.and_eq_true, Bool.not_eq_true'] at isOperator
    refine ⟨isOperator.1, ?_, isOperator.2⟩
    rw [← Cursor.advance_lastStop there]
    simp only
    omega
  · simpa [Node.children, Node.ofExpression] using intact

theorem unaryNode_behaves (c : Cursor)
    : Parser.Behaves source tokens c scope.unaryNode
        fun value _ => (Node.expression value).Intact tokens := by
  refine .of_sound fun sound => .skip .start fun start _ {begins _} => .look ?_
  obtain ⟨token, here, rfl, rfl⟩ := start_ok.mp begins
  rw [here]
  refine .ite (fun _ => ?_) fun _ => .ite (fun _ => ?_) fun _ => postfixed_behaves deeper c
  · refine .skip .advance fun _ m {past first} => ?_
    obtain rfl := advance_ok.mp past
    refine .bind (deeper.unary_behaves _ _) fun operand m {read _} => ?_
    refine .skip .spanFrom fun span _ {spans _} => .pure fun _ intact => .intro (fun same => ?_) ?_
    -- The operand begins behind the operator.
    · obtain ⟨rfl, -⟩ := spanFrom_ok.mp spans
      have read := deeper.unary first.sound read
      have taken := sound.offset_lt_advance here
      rw [read.start, ← Cursor.Sound.offset_eq here] at same
      omega
    · simpa [Node.children, Node.ofExpression] using intact
  · refine .skip .advance fun _ m => .bind (deeper.unary_behaves _ m) fun operand _ => ?_
    refine .skip .spanFrom fun span _ => .pure fun _ intact => .intro trivial ?_
    simpa [Node.children, Node.ofExpression] using intact

omit deeper in
/-- Operations between operands do not restrict lines. -/
theorem toExpression_intact {tree : OperatorTree Expression}
    (all : tree.HasOperands fun value => (Node.expression value).Intact tokens)
    : (Node.expression tree.toExpression).Intact tokens := by
  induction tree with
  | operand value => exact all
  | node left symbol right ihl ihr =>
      have second := List.forall_mem_singleton.mpr (ihr all.2)
      exact .intro trivial (List.forall_mem_cons.mpr ⟨ihl all.1, second⟩)

theorem binary_behaves (allowIn : Bool) (c : Cursor)
    : Parser.Behaves source tokens c (scope.binary allowIn)
        fun value _ => (Node.expression value).Intact tokens := by
  have operation (c : Cursor)
      : Parser.Behaves source tokens c (scope.operation allowIn) fun found _ =>
          found.Holds fun next => (Node.expression next.2).Intact tokens := by
    refine .skip .rereadAt fun _ m => .look ?_
    cases m.peek?.bind (binaryOperator? allowIn) with
    | none => exact .pure fun _ => trivial
    | some symbol =>
        exact .skip .advance fun _ _ => .skip .start fun _ m =>
          .bind (deeper.unary_behaves _ m) fun _ _ => .pure fun _ intact => intact
  refine .skip .start fun _ m => .bind (deeper.unary_behaves _ m) fun first _ => ?_
  refine .bind (.rounds operation) fun others _ => .pure fun _ all intact => ?_
  exact toExpression_intact (.ofChain intact all)

theorem conditional_behaves (allowIn : Bool) (c : Cursor)
    : Parser.Behaves source tokens c (scope.conditional allowIn)
        fun value _ => (Node.expression value).Intact tokens := by
  refine .skip .start fun start m => .bind (binary_behaves deeper allowIn m) fun test _ => ?_
  refine .skip .eat fun _ m => .ite (fun _ => ?_) fun _ => .pure fun _ intact => intact
  refine .bind (assignment_behaves deeper true m) fun consequent _ => ?_
  refine .skip .expect fun _ m => .bind (assignment_behaves deeper allowIn m) ?_
  refine fun alternate _ => .skip .spanFrom fun span _ => ?_
  refine .pure fun _ third second first => .intro trivial ?_
  simpa [Node.children, Node.ofExpression] using ⟨first, second, third⟩

-----------------------------------------------------------------------------------------
-- Arrow functions and assignments
-----------------------------------------------------------------------------------------

theorem arrow_behaves (allowIn isAsync : Bool) (c : Cursor)
    (inLine : isAsync → c.sees "async" ∧ c.newlineAt 1 = false)
    : Parser.Behaves source tokens c (scope.arrow allowIn isAsync)
        fun value _ => (Node.expression value).Intact tokens := by
  have params (c : Cursor)
      : Parser.Behaves source tokens c scope.arrowParams
          fun values _ => ∀ value ∈ values, (Node.expression value).Intact tokens :=
    .look (.ite (fun _ => params_behaves deeper c) fun _ =>
      (identifier_behaves c).map fun _ _ intact => List.forall_mem_singleton.mpr intact)
  refine .of_sound fun sound => .skip .start fun start _ {begins _} => ?_
  obtain ⟨token, here, rfl, rfl⟩ := start_ok.mp begins
  refine .skip .advanceIf fun _ m₁ {word first} => .bind (params m₁) fun values m₂ {_ second} => ?_
  refine .skip .expect fun _ m₃ {arrow third} => ?_
  have attached {last : Cursor} (onward : Moves (.ofSource source) m₃ last)
      (complete : last.Completes (.ofSource source) tokens) (async : isAsync)
      : AttachedAsync tokens token.span.start := by
    obtain ⟨sees, sameLine⟩ := inLine async
    rcases advanceIf_ok.mp word with ⟨-, rfl⟩ | ⟨no, -⟩
    · obtain ⟨arrows, rfl⟩ := expect_ok.mp arrow
      obtain ⟨symbol, there, -⟩ := Cursor.sees_eq_true.mp arrows
      have taken := second.sound.index_lt_advance there
      have before := second.index_le
      have behind := onward.index_le
      have last := second.trans (third.trans onward)
      rw [← Cursor.Sound.offset_eq here]
      exact attachedAsync sound sees sameLine last complete (by omega)
    · exact absurd async no
  have deeper' : (scope.inFunction false).deeper.Behaves source tokens := deeper
  refine .look (.ite (fun _ => ?_) fun _ => ?_)
  · refine .bind (functionBody_behaves deeper false m₃) fun body _ {_ fourth} => ?_
    refine .skip .markArrowEnd fun _ _ {_ fifth} => .skip .spanFrom fun span _ {spans _} => ?_
    refine .pure fun complete intact all => .intro (fun async => ?_) ?_
    · obtain ⟨rfl, rfl⟩ := spanFrom_ok.mp spans
      exact attached (fourth.trans fifth) complete async
    · simpa [Node.children, Node.ofExpression, or_imp, forall_and] using ⟨all, intact⟩
  · refine .bind (assignment_behaves deeper' allowIn m₃) fun body _ {_ fourth} => ?_
    refine .skip .spanFrom fun span _ {spans _} => ?_
    refine .pure fun complete intact all => .intro (fun async => ?_) ?_
    · obtain ⟨rfl, rfl⟩ := spanFrom_ok.mp spans
      exact attached fourth complete async
    · simpa [Node.children, Node.ofExpression, or_imp, forall_and] using ⟨all, intact⟩

omit deeper in
/-- The asterisk of a `yield` that delegates is on the line of that word. -/
theorem delegation_behaves (c : Cursor)
    : Parser.Behaves source tokens c delegation fun delegates c' =>
        (delegates = false → c' = c) ∧ (delegates → c.newlineAt 0 = false
          ∧ ∃ star after, c.following tokens = star :: after ∧ star.isPunctuator "*") := by
  refine .of_sound fun sound => .look (.ite (fun _ => ?_) fun inLine => ?_)
  · exact .pure fun _ => ⟨fun _ => rfl, nofun⟩
  refine Behaves.eat.conclude fun delegates c' run _ complete _ => ?_
  rcases eat_ok.mp run with ⟨rfl, asterisk, rfl⟩ | ⟨rfl, -, rfl⟩
  · obtain ⟨star, here, -⟩ := Cursor.sees_eq_true.mp asterisk
    have listed := sound.following_advance here complete
    have isStar := sound.isPunctuator_of_sees here asterisk rfl (by decide)
    exact ⟨nofun, fun _ => ⟨Bool.eq_false_iff.mpr inLine, star, _, listed, isStar⟩⟩
  · exact ⟨fun _ => rfl, nofun⟩

theorem yielded_behaves (allowIn : Bool) (c : Cursor)
    : Parser.Behaves source tokens c (scope.yielded allowIn)
        fun value _ => (Node.expression value).Intact tokens := by
  refine .of_sound fun sound => .skip .start fun start _ {begins _} => ?_
  obtain ⟨word, here, rfl, rfl⟩ := start_ok.mp begins
  refine .skip .advance fun _ m {past first} => ?_
  obtain rfl := advance_ok.mp past
  refine .bind (delegation_behaves c.advance) fun delegates m₁ {_ second} => ?_
  refine .look (.bind (.onlyIf fun _ => assignment_behaves deeper allowIn m₁) ?_)
  refine fun operand m₂ {given third} => .skip .spanFrom fun span _ {spans _} => ?_
  refine .pure fun complete intact ⟨stays, delegated⟩ => .intro ?_ (by
    simpa [Node.children, Node.ofExpression] using intact)
  obtain ⟨rfl, rfl⟩ := spanFrom_ok.mp spans
  rcases onlyIf_ok.mp given with ⟨begins, value, read, rfl⟩ | ⟨-, rfl, -⟩
  · have value := assignment_read deeper.toCovers second.sound read
    have taken := value.index_lt second.sound
    have before := second.index_le
    change Attached tokens word.span.start _
    rw [← Cursor.Sound.offset_eq here]
    refine sound.attached here ?_ (second.trans third) complete (by omega) ?_
    · rw [sound.newlineAt_one here]
      cases delegates with
      | true => exact (delegated rfl).1
      | false =>
          obtain rfl := stays rfl
          obtain ⟨token, there, begins⟩ := Option.any_eq_true .. |>.mp begins
          simp only [Bool.and_eq_true, Bool.not_eq_true'] at begins
          rw [first.sound.newlineAt_zero there, begins.1]
    · intro next after listed start
      cases delegates with
      | true =>
          obtain ⟨-, star, others, listed', isStar⟩ := delegated rfl
          obtain ⟨rfl, -⟩ := List.cons.inj (listed.symm.trans listed')
          exact .inl isStar
      | false =>
          obtain rfl := stays rfl
          exact .inr (start.trans value.start.symm)
  · trivial

theorem assignmentNode_behaves (allowIn : Bool) (c : Cursor)
    : Parser.Behaves source tokens c (scope.assignmentNode allowIn)
        fun value _ => (Node.expression value).Intact tokens := by
  refine .look (.ite (fun _ => arrow_behaves deeper _ _ c fun async => ?_) fun _ =>
    .ite (fun _ => yielded_behaves deeper allowIn c) fun _ => ?_)
  · simp only [Bool.and_eq_true, Bool.not_eq_true'] at async
    exact async.1
  refine .skip .start fun start m => .bind (conditional_behaves deeper allowIn m) ?_
  refine fun target _ => .look (.ite (fun _ => ?_) fun _ => .pure fun _ intact => intact)
  refine .skip .advance fun _ m => .bind (assignment_behaves deeper allowIn m) ?_
  refine fun value _ => .skip .spanFrom fun span _ => ?_
  refine .pure fun _ second first => .intro trivial ?_
  simpa [Node.children, Node.ofExpression] using ⟨first, second⟩

end Scope

end ScriptStyle.Grammar
