import ScriptStyle.Proofs.Grammar.Behaviour.Expression

/-!
What the parsers of statements do. The value of a `return` and the label of a jump stand on the line
of their word, and asynchronous functions are declared on the line of theirs.
-/

namespace ScriptStyle.Grammar

open Node (Intact)
open ScriptStyle.Grammar.Parser

variable {source : String} {tokens : List Token}

/-- A form of statements gives statements in which no line is broken, with any placement that begins
at one cursor and ends with the last token behind another. -/
def FormIntact (tokens : List Token) (c : Cursor) (form : Placement → Statement) (c' : Cursor)
    : Prop :=
  ∀ placement, Extent.BeginsAt placement.toExtent c → placement.tokens.last = c'.lastIndex →
    (Node.statement (form placement)).Intact tokens

/-- A form of statements that do not restrict lines. -/
theorem FormIntact.free {c c' : Cursor} {form : Placement → Statement}
    (own : ∀ placement, (Node.statement (form placement)).Unbroken tokens)
    (children : ∀ placement, ∀ child ∈ Node.ofStatement (form placement), child.Intact tokens)
    : FormIntact tokens c form c' :=
  fun placement _ _ => .intro (own placement) (children placement)

-----------------------------------------------------------------------------------------
-- Imports and exports
-----------------------------------------------------------------------------------------

section Clauses

theorem moduleName_intact (value : ModuleName)
    : (Node.moduleName value).Intact tokens :=
  .intro trivial (by simp [Node.children])

theorem moduleSource_intact (span : Span)
    : (Node.moduleSource span).Intact tokens :=
  .intro trivial (by simp [Node.children])

theorem specifier_intact (value : Specifier)
    : (Node.specifier value).Intact tokens :=
  .intro trivial (by simp [Node.children, moduleName_intact])

theorem importAttribute_intact (value : ImportAttribute)
    : (Node.importAttribute value).Intact tokens :=
  .intro trivial (by simp [Node.children, moduleName_intact, moduleSource_intact])

theorem moduleName_behaves (c : Cursor)
    : Parser.Behaves source tokens c moduleName fun _ _ => True := by
  refine .look ?_
  cases c.peek? with
  | none => exact .unexpected
  | some token =>
      refine .ite (fun _ => ?_) fun _ => .ite (fun _ => ?_) fun _ => .unexpected
      all_goals exact .skip .advance fun _ _ => .pure fun _ => trivial

theorem moduleString_behaves (c : Cursor)
    : Parser.Behaves source tokens c moduleString fun _ _ => True := by
  refine .look ?_
  cases c.peek? with
  | none => exact .unexpected
  | some token =>
      exact .ite (fun _ => .skip .advance fun _ _ => .pure fun _ => trivial) fun _ => .unexpected

theorem moduleAlias_behaves (c : Cursor)
    : Parser.Behaves source tokens c moduleAlias fun _ _ => True :=
  (Behaves.after? moduleName_behaves).any

theorem specifiers_behaves (c : Cursor)
    : Parser.Behaves source tokens c specifiers fun _ _ => True := by
  have entry (c : Cursor) : Parser.Behaves source tokens c specifier fun _ _ => True :=
    .skip (moduleName_behaves c) fun _ m => .skip (moduleAlias_behaves m) fun _ _ =>
      .pure fun _ => trivial
  refine .skip .expect fun _ m => ?_
  exact (Behaves.commaListUntil entry).any

theorem importAttributes_behaves (c : Cursor)
    : Parser.Behaves source tokens c importAttributes fun _ _ => True := by
  have entry (c : Cursor) : Parser.Behaves source tokens c importAttribute fun _ _ => True :=
    .skip (moduleName_behaves c) fun _ _ => .skip .expect fun _ m =>
      .skip (moduleString_behaves m) fun _ _ => .pure fun _ => trivial
  refine .look (.ite (fun _ => ?_) fun _ => .pure fun _ => trivial)
  refine .skip .advance fun _ _ => .skip .expect fun _ _ => ?_
  exact (Behaves.commaListUntil entry).any

theorem importClause_behaves (c : Cursor)
    : Parser.Behaves source tokens c importClause fun _ _ => True := by
  have bindings (c : Cursor) : Parser.Behaves source tokens c importBindings fun _ _ => True := by
    refine .skip .eat fun _ m => .ite (fun _ => ?_) fun _ => specifiers_behaves m
    exact .skip .expect fun _ m => .skip (identifier_behaves m) fun _ _ =>
      .pure fun _ => trivial
  have names (c : Cursor) : Parser.Behaves source tokens c importNames fun _ _ => True := by
    refine .look (.ite (fun _ => .skip .advance fun _ _ => ?_) fun _ => bindings c)
    exact .skip .eat fun _ m => .ite (fun _ => bindings m) fun _ => .pure fun _ => trivial
  refine .look (.ite (fun _ => .pure fun _ => trivial) fun _ => ?_)
  exact .skip (names c) fun _ _ => .skip .expect fun _ _ => .pure fun _ => trivial

theorem importFrom_behaves (c : Cursor)
    : Parser.Behaves source tokens c importFrom (FormIntact tokens c) := by
  refine .skip .advance fun _ m => .skip (importClause_behaves m) fun bound m => ?_
  refine .skip (moduleString_behaves m) fun named m => ?_
  refine .skip (importAttributes_behaves m) fun entries _ => ?_
  refine .skip .consumeSemicolon fun _ _ => .pure fun _ => .free (fun _ => trivial) fun _ => ?_
  simp [Node.ofStatement, or_imp, forall_and, specifier_intact, moduleSource_intact,
    importAttribute_intact]

theorem exportAll_behaves {beginning : Cursor} (c : Cursor)
    : Parser.Behaves source tokens c exportAll (FormIntact tokens beginning) := by
  refine .skip (moduleAlias_behaves c) fun name _ => .skip .expect fun _ m => ?_
  refine .skip (moduleString_behaves m) fun named m => ?_
  refine .skip (importAttributes_behaves m) fun entries _ => ?_
  refine .skip .consumeSemicolon fun _ _ => .pure fun _ => .free (fun _ => trivial) fun _ => ?_
  simp [Node.ofStatement, or_imp, forall_and, moduleName_intact, moduleSource_intact,
    importAttribute_intact]

theorem exportList_behaves {beginning : Cursor} (c : Cursor)
    : Parser.Behaves source tokens c exportList (FormIntact tokens beginning) := by
  have origin (c : Cursor) : Parser.Behaves source tokens c exportOrigin fun _ _ => True := by
    refine .skip .eat fun _ m => .ite (fun _ => ?_) fun _ => .pure fun _ => trivial
    exact .skip (moduleString_behaves m) fun _ m => .skip (importAttributes_behaves m)
      fun _ _ => .pure fun _ => trivial
  refine .skip (specifiers_behaves c) fun exported m => .skip (origin m) fun named _ => ?_
  refine .skip .consumeSemicolon fun _ _ => .pure fun _ => .free (fun _ => trivial) fun _ => ?_
  simp [Node.ofStatement, or_imp, forall_and, specifier_intact, moduleSource_intact,
    importAttribute_intact]

end Clauses

namespace Scope

variable {scope : Scope} (deeper : scope.deeper.Behaves source tokens)

include deeper

theorem statement_behaves (c : Cursor)
    : Parser.Behaves source tokens c scope.statement
        fun value _ => (Node.statement value).Intact tokens :=
  deeper.statement_behaves _ c

-----------------------------------------------------------------------------------------
-- Declarations
-----------------------------------------------------------------------------------------

theorem bindingTarget_behaves (c : Cursor)
    : Parser.Behaves source tokens c scope.bindingTarget
        fun value _ => (Node.expression value).Intact tokens :=
  .look (.ite (fun _ => operand_behaves deeper c) fun _ => identifier_behaves c)

theorem declaration_behaves (allowIn : Bool) (c : Cursor)
    : Parser.Behaves source tokens c (scope.declaration allowIn)
        fun found _ => ∀ value ∈ found.2, (Node.declarator value).Intact tokens := by
  have declarator (c : Cursor)
      : Parser.Behaves source tokens c (scope.declarator allowIn)
          fun value _ => (Node.declarator value).Intact tokens := by
    refine .bind (bindingTarget_behaves deeper c) fun target _ => ?_
    refine .bind (.after? (assignment_behaves deeper allowIn)) fun init _ => ?_
    refine .pure fun _ given intact => .intro trivial ?_
    simpa [Node.children] using ⟨intact, given⟩
  exact .look (.skip .advance fun _ _ => .bind (.commaSeparated declarator) fun _ _ =>
    .pure fun _ all => all)

theorem variableStatement_behaves {beginning : Cursor} (c : Cursor)
    : Parser.Behaves source tokens c scope.variableStatement (FormIntact tokens beginning) := by
  refine .bind (declaration_behaves deeper true c) fun found _ => ?_
  refine .skip .consumeSemicolon fun _ _ => .pure fun _ all => .free (fun _ => trivial) fun _ => ?_
  simpa [Node.ofStatement] using all

theorem functionStatement_behaves (c : Cursor) (inLine : c.sees "async" → c.newlineAt 1 = false)
    : Parser.Behaves source tokens c (Statement.function <$> scope.functionDef)
        (FormIntact tokens c) := by
  refine (functionDef_behaves deeper c inLine).map ?_
  refine fun definition _ ⟨intact, async⟩ placement begins _ => .intro (fun given => ?_) ?_
  · exact begins.2 ▸ async given
  · simpa [Node.children, Node.ofStatement] using intact

-----------------------------------------------------------------------------------------
-- Heads and clauses
-----------------------------------------------------------------------------------------

theorem forInit_behaves (c : Cursor)
    : Parser.Behaves source tokens c scope.forInit
        fun found _ => ∀ value ∈ found, (Node.forHead value).Intact tokens := by
  refine .look (.ite (fun _ => .pure fun _ => by simp) fun _ => .ite (fun _ => ?_) fun _ => ?_)
  · refine .bind (declaration_behaves deeper false c) fun found _ => .pure fun _ all => ?_
    have head : (Node.forHead (.declaration found.1 found.2)).Intact tokens :=
      .intro trivial (by simpa [Node.children] using all)
    simpa using head
  · refine .bind (expression_behaves deeper false c) fun value _ => .pure fun _ intact => ?_
    have head : (Node.forHead (.value value)).Intact tokens :=
      .intro trivial (by simpa [Node.children] using intact)
    simpa using head

theorem catchClause_behaves (c : Cursor)
    : Parser.Behaves source tokens c scope.catchClause
        fun value _ => (Node.catchClause value).Intact tokens := by
  have param (c : Cursor) : Parser.Behaves source tokens c (do
      let param ← scope.bindingTarget
      Parser.expect ")"
      pure param) fun value _ => (Node.expression value).Intact tokens :=
    .bind (bindingTarget_behaves deeper c) fun _ _ => .skip .expect fun _ _ =>
      .pure fun _ intact => intact
  refine .bind (.after? param) fun param m => .bind (block_behaves deeper m) fun body _ => ?_
  refine .pure fun _ intact given => .intro trivial ?_
  simpa [Node.children, or_imp, forall_and] using ⟨given, intact⟩

theorem switchCase_behaves (c : Cursor)
    : Parser.Behaves source tokens c scope.switchCase
        fun value _ => (Node.switchCase value).Intact tokens := by
  have test (c : Cursor)
      : Parser.Behaves source tokens c scope.caseTest
          fun found _ => ∀ value ∈ found, (Node.expression value).Intact tokens := by
    refine .skip .eat fun _ m => .ite (fun _ => ?_) fun _ => ?_
    · exact (expression_behaves deeper true m).map fun value _ intact => by simpa using intact
    · exact .skip .expect fun _ _ => .pure fun _ => by simp
  have clause (c : Cursor)
      : Parser.Behaves source tokens c scope.clauseRound
          fun found _ => found.Holds fun value => (Node.statement value).Intact tokens :=
    .look (.ite (fun _ => .pure fun _ => trivial) fun _ => .skip .atClose fun _ m =>
      .ite (fun _ => .pure fun _ => trivial) fun _ =>
        (statement_behaves deeper m).map (g := Round.more) fun _ _ intact => intact)
  refine .bind (test c) fun test _ => .skip .expect fun _ _ => ?_
  refine .bind (.rounds clause) fun body _ => .pure fun _ all given => .intro trivial ?_
  simpa [Node.children, or_imp, forall_and] using ⟨given, all⟩

-----------------------------------------------------------------------------------------
-- Restricted statements
-----------------------------------------------------------------------------------------

variable {c : Cursor} {word : Token}

theorem returnStatement_behaves (here : c.peek? = some word)
    : Parser.Behaves source tokens c scope.returnStatement (FormIntact tokens c) := by
  refine .of_sound fun sound => .skip .advance fun _ m {past first} => ?_
  obtain rfl := advance_ok.mp past
  refine .look (.bind (.onlyIf fun _ => expression_behaves deeper true c.advance) ?_)
  refine fun value m {given second} => .skip .consumeSemicolon fun _ _ {_ third} => ?_
  refine .pure fun complete intact placement begins _ => .intro ?_ (by
    simpa [Node.children, Node.ofStatement] using intact)
  rcases onlyIf_ok.mp given with ⟨follows, value, read, rfl⟩ | ⟨-, rfl, -⟩
  · have value := expression_read deeper.toCovers first.sound read
    obtain ⟨token, there, follows⟩ := Option.any_eq_true .. |>.mp follows
    simp only [Bool.and_eq_true, Bool.not_eq_true'] at follows
    change Attached tokens placement.span.start _
    rw [begins.2]
    refine sound.attached here ?_ second (complete.of_moves third) (value.index_lt first.sound) ?_
    · rw [sound.newlineAt_one here, first.sound.newlineAt_zero there, follows.1]
    · exact fun next after _ start => start.trans value.start.symm
  · trivial

omit deeper in
/-- The words of a jump are its first one and its label. -/
theorem jumpStatement_behaves {form : Placement → Statement} (here : c.peek? = some word)
    (own
      : ∀ placement : Placement, placement.WordsInLine tokens →
          (Node.statement (form placement)).Unbroken tokens)
    (childless : ∀ placement, Node.ofStatement (form placement) = [])
    : Parser.Behaves source tokens c (jumpStatement form) (FormIntact tokens c) := by
  refine .of_sound fun sound => .skip .advance fun _ m {past first} => ?_
  obtain rfl := advance_ok.mp past
  refine .look (.skip .advanceIf fun _ m {label second} => ?_)
  refine .skip .consumeSemicolon fun _ m' {ends third} => ?_
  refine .pure fun complete placement begins stops => ?_
  refine .intro (own placement fun index token above within there isWord => ?_) ?_
  · have significant : token.isSignificant := by
      simp [Token.isSignificant, isWord, TokenKind.isComment]
    rw [begins.1] at above
    rw [stops] at within
    have inside : index < m'.index := third.sound.lt_index_of_le_lastIndex (by omega) within
    by_cases inWord : index < c.advance.index
    · have same := Cursor.Sound.token_of_advance here (complete.of_moves (second.trans third)) there
        (Nat.le_of_lt above) inWord significant
      omega
    by_cases inLabel : index < m.index
    · rcases advanceIf_ok.mp label with ⟨labelled, rfl⟩ | ⟨-, rfl⟩
      · simp only [Bool.and_eq_true, Bool.not_eq_true'] at labelled
        obtain ⟨name, next, -⟩ := Option.any_eq_true .. |>.mp labelled.1
        obtain ⟨-, rfl⟩ := Cursor.Sound.token_of_advance next (complete.of_moves third) there
          (Nat.not_lt.mp inWord) inLabel significant
        rw [← first.sound.newlineAt_zero next, labelled.2]
      · exact absurd inLabel inWord
    · rcases consumeSemicolon_ok.mp ends with ⟨semicolon, rfl⟩ | ⟨-, -, rfl⟩
      · obtain ⟨closing, next, -⟩ := Cursor.sees_eq_true.mp semicolon
        obtain ⟨-, rfl⟩ := Cursor.Sound.token_of_advance next complete there
          (Nat.not_lt.mp inLabel) inside significant
        have spelled := second.sound.isPunctuator_of_sees next semicolon rfl (by decide)
        simp [Token.isPunctuator, isWord] at spelled
      · exact absurd inside inLabel
  · simp [Node.children, childless]

-----------------------------------------------------------------------------------------
-- Other statements
-----------------------------------------------------------------------------------------

section Free

variable {beginning : Cursor} (c : Cursor)

theorem expressionStatement_behaves
    : Parser.Behaves source tokens c scope.expressionStatement (FormIntact tokens beginning) := by
  refine .bind (expression_behaves deeper true c) fun value _ => ?_
  refine .skip .consumeSemicolon fun _ _ => .pure fun _ intact => ?_
  exact .free (fun _ => trivial) fun _ => by simpa [Node.ofStatement] using intact

theorem conditionalStatement_behaves
    : Parser.Behaves source tokens c scope.conditionalStatement (FormIntact tokens beginning) := by
  refine .skip .advance fun _ m => .bind (parenthesized_behaves deeper m) fun test m => ?_
  refine .bind (statement_behaves deeper m) fun consequent _ => ?_
  refine .bind (.after? (statement_behaves deeper)) fun alternate _ => ?_
  refine .pure fun _ third second first => .free (fun _ => trivial) fun _ => ?_
  simpa [Node.ofStatement, or_imp, forall_and] using ⟨first, second, third⟩

theorem forStatement_behaves
    : Parser.Behaves source tokens c scope.forStatement (FormIntact tokens beginning) := by
  have optional (closing : String) (c : Cursor)
      : Parser.Behaves source tokens c (scope.expressionUnless closing)
          fun found _ => ∀ value ∈ found, (Node.expression value).Intact tokens :=
    .look (.onlyIf fun _ => expression_behaves deeper true c)
  have threeParts (init : Option ForHead) (c : Cursor)
      : Parser.Behaves source tokens c (scope.forLoopRest init) fun form c' =>
          (∀ value ∈ init, (Node.forHead value).Intact tokens) →
            FormIntact tokens beginning form c' := by
    refine .skip .expect fun _ m => .bind (optional ";" m) fun test _ => ?_
    refine .skip .expect fun _ m => .bind (optional ")" m) fun update _ => ?_
    refine .skip .expect fun _ m => .bind (statement_behaves deeper m) fun body _ => ?_
    refine .pure fun _ last third second first => .free (fun _ => trivial) fun _ => ?_
    simpa [Node.ofStatement, or_imp, forall_and] using ⟨first, second, third, last⟩
  have overObject (left : ForHead) (isOf : Bool) (c : Cursor)
      : Parser.Behaves source tokens c (scope.forEachRest left isOf) fun form c' =>
          (Node.forHead left).Intact tokens → FormIntact tokens beginning form c' := by
    have object : Parser.Behaves source tokens c (scope.forEachObject isOf)
        fun value _ => (Node.expression value).Intact tokens :=
      .ite (fun _ => assignment_behaves deeper true c) fun _ => expression_behaves deeper true c
    refine .bind object fun right _ => .skip .expect fun _ m => ?_
    refine .bind (statement_behaves deeper m) fun body _ => ?_
    refine .pure fun _ last second first => .free (fun _ => trivial) fun _ => ?_
    simpa [Node.ofStatement] using ⟨first, second, last⟩
  refine .skip .advance fun _ _ => .skip .eat fun _ _ => .skip .expect fun _ m => ?_
  refine .bind (forInit_behaves deeper m) fun found m => ?_
  cases found with
  | none => exact threeParts none m
  | some left =>
      refine .look (.ite (fun _ => .skip .advance fun _ m => ?_) fun _ => threeParts _ m)
      exact (overObject left _ m).mono fun _ _ intact given => intact (given left rfl)

theorem whileStatement_behaves
    : Parser.Behaves source tokens c scope.whileStatement (FormIntact tokens beginning) := by
  refine .skip .advance fun _ m => .bind (parenthesized_behaves deeper m) fun test m => ?_
  refine .bind (statement_behaves deeper m) fun body _ => .pure fun _ second first => ?_
  exact .free (fun _ => trivial) fun _ => by simpa [Node.ofStatement] using ⟨first, second⟩

theorem doWhileStatement_behaves
    : Parser.Behaves source tokens c scope.doWhileStatement (FormIntact tokens beginning) := by
  refine .skip .advance fun _ m => .bind (statement_behaves deeper m) fun body _ => ?_
  refine .skip .expect fun _ m => .bind (parenthesized_behaves deeper m) fun test _ => ?_
  refine .skip .eat fun _ _ => .pure fun _ second first => ?_
  exact .free (fun _ => trivial) fun _ => by simpa [Node.ofStatement] using ⟨second, first⟩

theorem throwStatement_behaves
    : Parser.Behaves source tokens c scope.throwStatement (FormIntact tokens beginning) := by
  refine .skip .advance fun _ m => .bind (expression_behaves deeper true m) fun value _ => ?_
  refine .skip .consumeSemicolon fun _ _ => .pure fun _ intact => ?_
  exact .free (fun _ => trivial) fun _ => by simpa [Node.ofStatement] using intact

theorem tryStatement_behaves
    : Parser.Behaves source tokens c scope.tryStatement (FormIntact tokens beginning) := by
  refine .skip .advance fun _ m => .bind (block_behaves deeper m) fun block _ => ?_
  refine .bind (.after? (catchClause_behaves deeper)) fun handler _ => ?_
  refine .bind (.after? (block_behaves deeper)) fun finalizer _ => ?_
  refine .pure fun _ third second first => .free (fun _ => trivial) fun _ => ?_
  simpa [Node.ofStatement, or_imp, forall_and] using ⟨first, second, third⟩

theorem switchStatement_behaves
    : Parser.Behaves source tokens c scope.switchStatement (FormIntact tokens beginning) := by
  refine .skip .advance fun _ m => .bind (parenthesized_behaves deeper m) ?_
  refine fun discriminant _ => .skip .expect fun _ _ => ?_
  refine .bind (.itemsUntil (switchCase_behaves deeper)) fun cases _ => ?_
  refine .pure fun _ all first => .free (fun _ => trivial) fun _ => ?_
  simpa [Node.ofStatement] using ⟨first, all⟩

theorem withStatement_behaves
    : Parser.Behaves source tokens c scope.withStatement (FormIntact tokens beginning) := by
  refine .skip .advance fun _ m => .bind (parenthesized_behaves deeper m) fun object m => ?_
  refine .bind (statement_behaves deeper m) fun body _ => .pure fun _ second first => ?_
  exact .free (fun _ => trivial) fun _ => by simpa [Node.ofStatement] using ⟨first, second⟩

theorem labeledStatement_behaves
    : Parser.Behaves source tokens c scope.labeledStatement (FormIntact tokens beginning) := by
  refine .skip .advance fun _ _ => .skip .advance fun _ m => ?_
  refine .bind (statement_behaves deeper m) fun body _ => .pure fun _ intact => ?_
  exact .free (fun _ => trivial) fun _ => by simpa [Node.ofStatement] using intact

theorem exportStatement_behaves
    : Parser.Behaves source tokens c scope.exportStatement (FormIntact tokens beginning) := by
  have default (c : Cursor)
      : Parser.Behaves source tokens c scope.exportDefault (FormIntact tokens beginning) := by
    refine .look (.ite (fun _ => ?_) fun _ => ?_)
    · refine .bind (statement_behaves deeper c) fun declaration _ => .pure fun _ intact => ?_
      exact .free (fun _ => trivial) fun _ => by simpa [Node.ofStatement] using intact
    · refine .bind (assignment_behaves deeper true c) fun value _ => ?_
      refine .skip .consumeSemicolon fun _ _ => .pure fun _ intact => ?_
      exact .free (fun _ => trivial) fun _ => by simpa [Node.ofStatement] using intact
  refine .skip .advance fun _ _ => .skip .eat fun _ m => ?_
  refine .ite (fun _ => exportAll_behaves m) fun _ => .skip .eat fun _ m => ?_
  refine .ite (fun _ => default m) fun _ => .look (.ite (fun _ => exportList_behaves m) fun _ => ?_)
  refine .bind (statement_behaves deeper m) fun declaration _ => .pure fun _ intact => ?_
  exact .free (fun _ => trivial) fun _ => by simpa [Node.ofStatement] using intact

theorem plainWordStatement_behaves (cursor : Cursor)
    : Parser.Behaves source tokens c (scope.plainWordStatement cursor)
        (FormIntact tokens beginning) :=
  .ite (fun _ => labeledStatement_behaves deeper c) fun _ => expressionStatement_behaves deeper c

end Free

-----------------------------------------------------------------------------------------
-- All statements
-----------------------------------------------------------------------------------------

theorem wordStatement_behaves (here : c.peek? = some word)
    : Parser.Behaves source tokens c (scope.wordStatement word.text) (FormIntact tokens c) := by
  have plain (cursor : Cursor)
      : Parser.Behaves source tokens c (scope.plainWordStatement cursor) (FormIntact tokens c) :=
    plainWordStatement_behaves deeper c cursor
  refine .look ?_
  generalize text : word.text = keyword
  split
  · exact variableStatement_behaves deeper c
  · exact variableStatement_behaves deeper c
  · exact .ite (fun _ => variableStatement_behaves deeper c) fun _ => plain c
  · refine functionStatement_behaves deeper c fun async => ?_
    simp [Cursor.sees, here, Token.isTerminal, text] at async
  · refine .ite (fun declares => functionStatement_behaves deeper c fun _ => ?_) fun _ => plain c
    simp only [Cursor.atAsyncFunction, Bool.and_eq_true, Bool.not_eq_true'] at declares
    exact declares.2
  · refine (classDef_behaves deeper c).map fun definition _ intact => .free (fun _ => trivial) ?_
    simpa [Node.ofStatement] using intact
  · exact conditionalStatement_behaves deeper c
  · exact forStatement_behaves deeper c
  · exact whileStatement_behaves deeper c
  · exact doWhileStatement_behaves deeper c
  · exact returnStatement_behaves deeper here
  · exact jumpStatement_behaves here (fun _ inLine => inLine) fun _ => rfl
  · exact jumpStatement_behaves here (fun _ inLine => inLine) fun _ => rfl
  · exact throwStatement_behaves deeper c
  · refine .skip .advance fun _ _ => .skip .consumeSemicolon fun _ _ => .pure fun _ => ?_
    exact .free (fun _ => trivial) fun _ => by simp [Node.ofStatement]
  · exact tryStatement_behaves deeper c
  · exact switchStatement_behaves deeper c
  · exact withStatement_behaves deeper c
  · exact .ite (fun _ => plain c) fun _ => importFrom_behaves c
  · exact exportStatement_behaves deeper c
  · exact plain c

theorem statementForm_behaves (c : Cursor)
    : Parser.Behaves source tokens c scope.statementForm (FormIntact tokens c) := by
  refine .look ?_
  cases here : c.peek? with
  | none => exact .endOfInput
  | some token =>
      refine .ite (fun _ => ?_) fun _ => .ite (fun _ => ?_) fun _ => .ite ?_ ?_
      · refine (block_behaves deeper c).map fun block _ intact => .free (fun _ => trivial) ?_
        simpa [Node.ofStatement] using intact
      · refine .skip .advance fun _ _ => .pure fun _ => .free (fun _ => trivial) fun _ => ?_
        simp [Node.ofStatement]
      · exact fun _ => wordStatement_behaves deeper here
      · exact fun _ => expressionStatement_behaves deeper c

theorem statementNode_behaves (c : Cursor)
    : Parser.Behaves source tokens c scope.statementNode
        fun value _ => (Node.statement value).Intact tokens := by
  refine .look (.skip .start fun start _ {begins _} => ?_)
  obtain ⟨token, here, rfl, rfl⟩ := start_ok.mp begins
  refine .bind (statementForm_behaves deeper c) fun form m => ?_
  refine .skip .extentFrom fun extent _ {extents _} => .pure fun _ intact => ?_
  obtain ⟨rfl, rfl⟩ := extentFrom_ok.mp extents
  exact intact _ ⟨rfl, (Cursor.Sound.offset_eq here).symm⟩ rfl

end Scope

end ScriptStyle.Grammar
