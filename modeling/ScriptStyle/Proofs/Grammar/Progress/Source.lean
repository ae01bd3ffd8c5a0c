import ScriptStyle.Proofs.Grammar.Progress.Repetition
import ScriptStyle.Proofs.Grammar.Progress.Statement

/-!
Progress of the parsers over a source. However slashes are read again, tokens that were passed stay
as they are and the offset of the cursor never falls; constructs and the rounds of repetitions that
go on take bytes, so that repetitions and nesting end where the bytes do.
-/

namespace ScriptStyle.Grammar

open ScriptStyle.Grammar.Parser

variable {α : Type} {origin : Scanner} {source : String} {depth : Nat} {c m c' : Cursor}

-----------------------------------------------------------------------------------------
-- Parsing functions
-----------------------------------------------------------------------------------------

/-- One more level makes room for one more. -/
theorem Parser.Walks.deepen {need : Nat} {p : Parser α} (walks : p.Walks origin depth need c)
    : p.Walks origin (depth + 1) (need + 1) c where
  leads := walks.leads
  sheltered sound roomy := walks.sheltered sound (by simp only [Cursor.Roomy] at roomy ⊢; omega)

/-- The level below the last has room for nothing, and each level is made of the next. -/
theorem Level.ofDepth_walks (depth : Nat)
    : (Level.ofDepth depth).Walks origin depth := by
  induction depth with
  | zero => exact ⟨fun _ _ _ => .tooDeep, fun _ _ _ _ => .tooDeep, fun _ _ _ => .tooDeep,
      fun _ _ _ => .tooDeep, fun _ _ _ => .tooDeep⟩
  | succ depth walks =>
      have deeper (inGenerator : Bool)
          : (Scope.mk (Level.ofDepth depth) inGenerator).deeper.Walks origin depth := walks
      exact {
        statement := fun _ _ c => (Scope.statementNode_walks (deeper _) c).deepen
        assignment := fun _ allowIn _ c => (Scope.assignmentNode_walks (deeper _) allowIn c).deepen
        unary := fun _ _ c => (Scope.unaryNode_walks (deeper _) c).deepen
        heritage := fun _ _ c => (Scope.leftHandSide_walks (deeper _) c).deepen
        construct := fun _ _ c => (Scope.construct_walks (deeper _) c).deepen }

/-- A scope with the given number of levels below it. -/
def Scope.ofDepth (depth : Nat) (inGenerator : Bool) : Scope :=
  ⟨Level.ofDepth depth, inGenerator⟩

/-- The parsing functions of the grammar below a program, in a scope. -/
inductive Scope.Parses (scope : Scope) : {α : Type} → Parser α → Prop
  -- Moves of the cursor.
  | advance : scope.Parses Parser.advance
  | reread (reading : SlashReading) : scope.Parses (Parser.reread reading)
  | eat (text : String) : scope.Parses (Parser.eat text)
  | expect (text : String) : scope.Parses (Parser.expect text)
  | consumeSemicolon : scope.Parses Parser.consumeSemicolon
  -- Statements.
  | statement : scope.Parses scope.statement
  | statementNode : scope.Parses scope.statementNode
  | statementForm : scope.Parses scope.statementForm
  | wordStatement (word : String) : scope.Parses (scope.wordStatement word)
  | expressionStatement : scope.Parses scope.expressionStatement
  | variableStatement : scope.Parses scope.variableStatement
  | declaration (allowIn : Bool) : scope.Parses (scope.declaration allowIn)
  | bindingTarget : scope.Parses scope.bindingTarget
  | block : scope.Parses scope.block
  | parenthesized : scope.Parses scope.parenthesized
  | conditionalStatement : scope.Parses scope.conditionalStatement
  | forStatement : scope.Parses scope.forStatement
  | forLoopRest (init : Option ForHead) : scope.Parses (scope.forLoopRest init)
  | whileStatement : scope.Parses scope.whileStatement
  | doWhileStatement : scope.Parses scope.doWhileStatement
  | returnStatement : scope.Parses scope.returnStatement
  | jumpStatement (form : Placement → Statement) : scope.Parses (jumpStatement form)
  | throwStatement : scope.Parses scope.throwStatement
  | tryStatement : scope.Parses scope.tryStatement
  | switchStatement : scope.Parses scope.switchStatement
  | withStatement : scope.Parses scope.withStatement
  | labeledStatement : scope.Parses scope.labeledStatement
  -- Modules.
  | importFrom : scope.Parses importFrom
  | importBindings : scope.Parses importBindings
  | specifiers : scope.Parses specifiers
  | moduleName : scope.Parses moduleName
  | moduleString : scope.Parses moduleString
  | importAttributes : scope.Parses importAttributes
  | exportStatement : scope.Parses scope.exportStatement
  -- Functions and classes.
  | functionDef : scope.Parses scope.functionDef
  | functionRest (isAsync isGenerator : Bool) : scope.Parses (scope.functionRest isAsync isGenerator)
  | params : scope.Parses scope.params
  | functionBody (isGenerator : Bool) : scope.Parses (scope.functionBody isGenerator)
  | classDef : scope.Parses scope.classDef
  | classMember : scope.Parses scope.classMember
  | memberDefinition (isStatic : Bool) : scope.Parses (scope.memberDefinition isStatic)
  | propertyKey : scope.Parses scope.propertyKey
  -- Expressions.
  | expression (allowIn : Bool) : scope.Parses (scope.expression allowIn)
  | assignment (allowIn : Bool) : scope.Parses (scope.assignment allowIn)
  | assignmentNode (allowIn : Bool) : scope.Parses (scope.assignmentNode allowIn)
  | yielded (allowIn : Bool) : scope.Parses (scope.yielded allowIn)
  | arrow (allowIn isAsync : Bool) : scope.Parses (scope.arrow allowIn isAsync)
  | conditional (allowIn : Bool) : scope.Parses (scope.conditional allowIn)
  | binary (allowIn : Bool) : scope.Parses (scope.binary allowIn)
  | unary : scope.Parses scope.unary
  | unaryNode : scope.Parses scope.unaryNode
  | postfixed : scope.Parses scope.postfixed
  | heritage : scope.Parses scope.heritage
  | leftHandSide : scope.Parses scope.leftHandSide
  | innerConstruct : scope.Parses scope.innerConstruct
  | construct : scope.Parses scope.construct
  | withSuffixes (allowCall : Bool) (object : Expression)
    : scope.Parses (scope.withSuffixes allowCall object)
  | memberName : scope.Parses memberName
  | arguments : scope.Parses scope.arguments
  | spreadOrAssignment : scope.Parses scope.spreadOrAssignment
  | identifier : scope.Parses identifier
  | operand : scope.Parses scope.operand
  | templateLiteral (isTagged : Bool) : scope.Parses (scope.templateLiteral isTagged)
  | arrayElements : scope.Parses scope.arrayElements
  | properties : scope.Parses scope.properties
  | property : scope.Parses scope.property

/-- All parsing functions walk over the tokens, and three levels are all they need before they take
a token. -/
theorem Scope.Parses.walks {scope : Scope} {p : Parser α} (parses : scope.Parses p)
    (deeper : scope.deeper.Walks origin depth) (c : Cursor)
    : p.Walks origin depth 3 c := by
  have space : c.Spacious origin 3 := .of_three
  cases parses with
  | advance => exact .advance
  | reread => exact .reread
  | eat => exact .eat
  | expect => exact .expect
  | consumeSemicolon => exact .consumeSemicolon
  | statement => exact statement_walks deeper c
  | statementNode => exact statementNode_walks deeper c
  | statementForm => exact statementForm_walks deeper c
  | wordStatement word => exact wordStatement_walks deeper word space
  | expressionStatement => exact expressionStatement_walks deeper c
  | variableStatement => exact variableStatement_walks deeper c
  | declaration allowIn => exact declaration_walks deeper allowIn c
  | bindingTarget => exact bindingTarget_walks deeper c
  | block => exact block_walks deeper c
  | parenthesized => exact parenthesized_walks deeper c
  | conditionalStatement => exact conditionalStatement_walks deeper space
  | forStatement => exact forStatement_walks deeper c
  | forLoopRest init => exact forLoopRest_walks deeper init c
  | whileStatement => exact whileStatement_walks deeper space
  | doWhileStatement => exact doWhileStatement_walks deeper space
  | returnStatement => exact returnStatement_walks deeper space
  | jumpStatement form => exact jumpStatement_walks form c
  | throwStatement => exact throwStatement_walks deeper space
  | tryStatement => exact tryStatement_walks deeper c
  | switchStatement => exact switchStatement_walks deeper c
  | withStatement => exact withStatement_walks deeper space
  | labeledStatement => exact labeledStatement_walks deeper space
  | importFrom => exact importFrom_walks c
  | importBindings => exact importBindings_walks c
  | specifiers => exact specifiers_walks c
  | moduleName => exact moduleName_walks c
  | moduleString => exact moduleString_walks c
  | importAttributes => exact importAttributes_walks c
  | exportStatement => exact exportStatement_walks deeper space
  | functionDef => exact functionDef_walks deeper c
  | functionRest isAsync isGenerator => exact functionRest_walks deeper isAsync isGenerator c
  | params => exact params_walks deeper c
  | functionBody isGenerator => exact functionBody_walks deeper isGenerator c
  | classDef => exact classDef_walks deeper c
  | classMember => exact classMember_walks deeper c
  | memberDefinition isStatic => exact memberDefinition_walks deeper isStatic c
  | propertyKey => exact propertyKey_walks deeper c
  | expression allowIn => exact expression_walks deeper allowIn c
  | assignment allowIn => exact assignment_walks deeper allowIn c
  | assignmentNode allowIn => exact assignmentNode_walks deeper allowIn c
  | yielded allowIn => exact yielded_walks deeper allowIn c
  | arrow allowIn isAsync => exact arrow_walks deeper allowIn isAsync c
  | conditional allowIn => exact conditional_walks deeper allowIn c
  | binary allowIn => exact binary_walks deeper allowIn c
  | unary => exact unary_walks deeper c
  | unaryNode => exact unaryNode_walks deeper c
  | postfixed => exact postfixed_walks deeper c
  | heritage => exact deeper.heritage _ c
  | leftHandSide => exact leftHandSide_walks deeper c
  | innerConstruct => exact deeper.construct _ c
  | construct => exact construct_walks deeper c
  | withSuffixes allowCall object => exact withSuffixes_walks deeper allowCall object c
  | memberName => exact memberName_walks c
  | arguments => exact arguments_walks deeper c
  | spreadOrAssignment => exact spreadOrAssignment_walks deeper c
  | identifier => exact identifier_walks c
  | operand => exact operand_walks deeper c
  | templateLiteral isTagged => exact templateLiteral_walks deeper isTagged c
  | arrayElements => exact arrayElements_walks deeper space
  | properties => exact properties_walks deeper c
  | property => exact property_walks deeper c

theorem program_walks (c : Cursor)
    : program.Walks origin maxDepth 3 c := by
  have round (c : Cursor) : statementRound.Walks origin maxDepth 3 c := by
    refine .look ?_
    cases c.peek? with
    | none => exact .pure
    | some token => exact (Scope.statement_walks (Level.ofDepth_walks maxDepth) c).map
  refine .bind (.rounds round) fun body m => .look ?_
  cases fault : m.fault with
  | none => exact .pure
  | some error => exact .fault fault

-----------------------------------------------------------------------------------------
-- Constructs that take bytes
-----------------------------------------------------------------------------------------

/-- The constructs that repetitions and recursions are made of. -/
inductive Scope.Takes (scope : Scope) : {α : Type} → Parser α → Prop
  | statement : scope.Takes scope.statement
  | classMember : scope.Takes scope.classMember
  | assignment (allowIn : Bool) : scope.Takes (scope.assignment allowIn)
  | unary : scope.Takes scope.unary
  | property : scope.Takes scope.property

/-- An entry of an object takes the name that it has, or the dots in front of it. -/
theorem Scope.property_rises {scope : Scope} (deeper : scope.deeper.Covers origin)
    {entry : Property} (sound : c.Sound origin) (run : scope.property c = .ok (entry, c'))
    : c.offset < c'.lastStop := by
  simp only [property, bind_ok, get_ok, ite_ok, pure_ok, unexpected_ok, and_false, false_or] at run
  obtain ⟨_, m, dots, ⟨taken, value, _, run, rfl, rfl⟩ | ⟨-, modifiers, m₁, words, key, m₂, named, _,
    _, ⟨rfl, rfl⟩, run⟩⟩ := run
  all_goals obtain ⟨first, rises⟩ := eat_held (by decide) sound dots
  · exact Nat.lt_of_lt_of_le (rises taken) (assignment_read deeper first.sound run).lastStop_le
  · have second := first.trans (Modifiers.parse_held first.sound words)
    obtain ⟨third, rises⟩ := propertyKey_held deeper second.sound named
    have before := second.offset_le
    suffices m₂.lastStop ≤ c'.lastStop by omega
    rcases run with ⟨-, definition, _, rest, rfl, rfl⟩ | ⟨-, -, _, m₃, colon, run⟩
    · exact (functionRest_held deeper third.sound rest).1.lastStop_le
    · have fourth := (eat_held (by decide) third.sound colon).1
      refine fourth.lastStop_le.trans ?_
      rcases run with ⟨-, value, _, run, rfl, rfl⟩ | ⟨-, run⟩
      · exact (assignment_read deeper fourth.sound run).lastStop_le
      · cases key <;> simp only [bind_ok, pure_ok, unexpected_ok] at run
        obtain ⟨default, _, init, rfl, rfl⟩ := run
        exact (after?_held (by decide) (fun sound run => (assignment_read deeper sound run).toHeld)
          fourth.sound init).lastStop_le

namespace Scope.Takes

variable {scope : Scope} {p : Parser α} {a : α}

theorem parses (takes : scope.Takes p)
    : scope.Parses p := by
  cases takes <;> constructor

theorem rises (takes : scope.Takes p) (covers : scope.deeper.Covers origin) (sound : c.Sound origin)
    (run : p c = .ok (a, c'))
    : c.offset < c'.lastStop := by
  cases takes with
  | statement => exact (statement_read covers sound run).rises
  | classMember => exact (classMember_read covers sound run).2
  | assignment => exact (assignment_read covers sound run).rises
  | unary => exact (covers.unary sound run).rises
  | property => exact property_rises covers sound run

theorem offset_lt (takes : scope.Takes p) (covers : scope.deeper.Covers origin)
    (walks : scope.deeper.Walks origin depth) (sound : c.Sound origin) (run : p c = .ok (a, c'))
    : c.offset < c'.offset := by
  have moved := ((takes.parses.walks walks c).leads a c' run).moves sound
  exact Nat.lt_of_lt_of_le (takes.rises covers sound run) moved.sound.lastStop_le_offset.1

end Scope.Takes

-----------------------------------------------------------------------------------------
-- Progress
-----------------------------------------------------------------------------------------

/-- Indexed tokens come after others: the tokens in front of the current one of those are still the
same, and the offset has not fallen. -/
structure IndexedTokens.Onward (state state' : IndexedTokens) : Prop where
  kept : state'.list.tokens.take state.index = state.list.tokens.take state.index
  offset_le : state.offset ≤ state'.offset

theorem Reached.onward {state state' : IndexedTokens} (reached : Reached source state c)
    (reached' : Reached source state' c') (moves : Moves (.ofSource source) c c')
    : state.Onward state' := by
  have shows := reached.tracks.shows
  have shows' := reached'.tracks.shows
  refine ⟨?_, shows.offset ▸ shows'.offset ▸ moves.offset_le⟩
  obtain ⟨more, grows⟩ := moves.grows
  have size : c.behind.toList.length = state.index := by simp [shows.index, Cursor.index]
  rw [reached'.tracks.tokens, reached.tracks.tokens, ← grows, List.append_assoc, ← size,
    List.take_left, List.take_left]

/-- Where a parser walks, what it leaves is reached and comes after what was there. -/
theorem Parser.Walks.exists_reached {need : Nat} {p : Parser α} {a : α} {state : IndexedTokens}
    (walks : p.Walks (.ofSource source) depth need c) (reached : Reached source state c)
    (run : p c = .ok (a, c'))
    : ∃ state', Reached source state' c' ∧ state.Onward state' := by
  have leads := walks.leads a c' run
  obtain ⟨state', reached'⟩ := reached.leads leads
  exact ⟨state', reached', reached.onward reached' (leads.moves reached.tracks.sound)⟩

/-- What holds of the tokens and the parsers at a state that was reached in a source. The parsers
are those of any scope, whatever the limit on nesting. -/
structure Progress (source : String) (state : IndexedTokens) (c : Cursor) : Prop where
  shows : state.Shows c
  remaining_le : c.remaining ≤ source.utf8ByteSize
  /-- Reading a slash again keeps the tokens before the cursor and does not move back. -/
  reread (reading : SlashReading) : state.Onward (state.reread reading)
  /-- So does every parser that succeeds, and it ends in a state that can be reached. -/
  parsed {depth : Nat} {inGenerator : Bool} {α : Type} {p : Parser α} {a : α} {c' : Cursor}
    (parses : (Scope.ofDepth depth inGenerator).Parses p) (run : p c = .ok (a, c'))
    : ∃ state', Reached source state' c' ∧ state.Onward state'
  program {found : Program} {c' : Cursor} (run : program c = .ok (found, c'))
    : ∃ state', Reached source state' c' ∧ state.Onward state'
  /-- A statement, a class member, a property, an assignment or an operand takes a byte. -/
  takes {depth : Nat} {inGenerator : Bool} {α : Type} {p : Parser α} {a : α} {c' : Cursor}
    (takes : (Scope.ofDepth depth inGenerator).Takes p) (run : p c = .ok (a, c'))
    : c.offset < c'.offset
  /-- A round that another follows takes a byte. -/
  round {depth : Nat} {inGenerator : Bool} {α : Type} {round : Parser (Round α)} {found : Round α}
    {c' : Cursor} (repeats : (Scope.ofDepth depth inGenerator).Repeats round)
    (run : round c = .ok (found, c')) (goesOn : found.goesOn)
    : c.offset < c'.offset
  /-- A repetition ends by itself, after no more rounds than bytes remain and one. -/
  repetition {depth : Nat} {inGenerator : Bool} {α : Type} {round : Parser (Round α)}
    (repeats : (Scope.ofDepth depth inGenerator).Repeats round)
    : (∀ fuel, c.remaining < fuel → roundsUpTo round fuel c = rounds round c)
      ∧ ∀ items c', rounds round c = .ok (items, c') → items.length ≤ c.remaining + 1
  /-- A limit of three levels for each byte that remains, and three more, is never met. -/
  nesting {depth : Nat} {inGenerator : Bool} {α : Type} {p : Parser α}
    (parses : (Scope.ofDepth depth inGenerator).Parses p) (room : 3 * c.remaining + 3 ≤ depth)
    (offset : Nat)
    : p c ≠ .error (.nestingTooDeep offset)

/-- Parsers make progress from every state that can be reached in any source, however slashes were
read again on the way to it. -/
theorem progress_of_reached {state : IndexedTokens} (reached : Reached source state c)
    : Progress source state c where
  shows := reached.tracks.shows
  remaining_le := by
    have length := reached.tracks.sound.length
    have whole : (Scanner.ofSource source).offset + Text.byteLength (Scanner.ofSource source).rest
        = source.utf8ByteSize := (Nat.zero_add _).trans (Text.byteLength_toList source)
    simp only [Cursor.remaining]
    omega
  reread reading :=
    reached.onward (.reread reading reached) (reached.tracks.sound.reread_held reading).moves
  parsed parses run := (parses.walks (Level.ofDepth_walks _) c).exists_reached reached run
  program run := (program_walks c).exists_reached reached run
  takes takes run :=
    takes.offset_lt (Level.ofDepth_covers _) (Level.ofDepth_walks _) reached.tracks.sound run
  round repeats run goesOn :=
    (repeats.takes (Level.ofDepth_covers _)).rises reached.tracks.sound run goesOn
  repetition repeats :=
    ⟨fun _ enough => (repeats.takes (Level.ofDepth_covers _)).roundsUpTo_eq reached.tracks.sound
      enough (Nat.lt_succ_self _), fun _ _ run => length_roundsUpTo_le run⟩
  nesting parses room :=
    (parses.walks (Level.ofDepth_walks _) c).sheltered reached.tracks.sound room

/-- A slash that was guessed to begin a regular expression is read again as a division, which makes
more of the tokens ahead. -/
theorem progress_of_division
    : ∃ (before : IndexedTokens) (c : Cursor), Reached "x={}/1/2" before c
        ∧ before.significant = [0, 1, 2, 3, 4]
        ∧ (before.reread .division).significant = [0, 1, 2, 3, 4, 5, 6, 7]
        ∧ Progress "x={}/1/2" (before.reread .division) (c.reread .division) := by
  have reached : Reached "x={}/1/2" _ _ := .advance (.advance (.advance (.advance .start)))
  exact ⟨_, _, reached, by decide +kernel, by decide +kernel,
    progress_of_reached (.reread .division reached)⟩

end ScriptStyle.Grammar
