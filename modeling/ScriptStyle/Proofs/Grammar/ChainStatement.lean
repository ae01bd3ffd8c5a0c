import ScriptStyle.Proofs.Grammar.Chains
import ScriptStyle.Proofs.Grammar.Coverage.Source

/-!
A statement that is a chain of binary operators. Its operands are read one after another, and the
tree that comes of it is the one that groups them by the levels of the operators.
-/

namespace ScriptStyle

namespace Grammar

-----------------------------------------------------------------------------------------
-- Runs of parsers that are known to succeed
-----------------------------------------------------------------------------------------

namespace Parser

variable {α β : Type} {c c' : Cursor}

/-- Behind a parser that succeeds, the next one goes on with its result. -/
theorem bind_of_ok {p : Parser α} {a : α} (run : p c = .ok (a, c')) (f : α → Parser β)
    : (p >>= f) c = f a c' := by
  change StateT.bind p f c = _
  rw [StateT.bind, run]
  rfl

theorem get_bind (f : Cursor → Parser β)
    : (get >>= f) c = f c c :=
  rfl

theorem roundsUpTo_of_more {round : Parser (Round α)} {item : α}
    (goesOn : round c = .ok (.more item, c')) (fuel : Nat)
    : roundsUpTo round (fuel + 1) c = (List.cons item <$> roundsUpTo round fuel) c' := by
  rw [roundsUpTo, bind_of_ok goesOn]
  rfl

theorem rounds_of_last {round : Parser (Round α)} {item : α}
    (ends : round c = .ok (.last item, c'))
    : rounds round c = .ok ([item], c') := by
  rw [rounds, roundsUpTo, bind_of_ok ends]
  rfl

theorem roundsUpTo_of_stop {round : Parser (Round α)} (stops : round c = .ok (.stop, c))
    (fuel : Nat)
    : roundsUpTo round fuel c = .ok ([], c) := by
  cases fuel with
  | zero => rfl
  | succ fuel =>
      rw [roundsUpTo, bind_of_ok stops]
      rfl

end Parser

-----------------------------------------------------------------------------------------
-- Cursors before the last tokens of a source
-----------------------------------------------------------------------------------------

/-- The given tokens, all of them significant, are ahead of a cursor, and then the source ends. -/
structure Cursor.Before (c : Cursor) (tokens : List Token) : Prop where
  ahead : c.ahead.map ScannedToken.token = tokens
  complete : c.fault = none
  significant : ∀ token ∈ tokens, token.isSignificant

namespace Cursor.Before

variable {c : Cursor} {token : Token} {tokens : List Token}

theorem peek? (before : c.Before tokens)
    : c.peek? = tokens.head? := by
  rw [Cursor.peek?, ← before.ahead, List.head?_map]

theorem peekAt? (before : c.Before tokens) (count : Nat)
    : c.peekAt? count = tokens[count]? := by
  have all : Grammar.significant c.ahead = tokens := by
    rw [Grammar.significant, before.ahead, List.filter_eq_self.mpr before.significant]
  rw [Cursor.peekAt?, all]

/-- No comments are skipped before significant tokens. -/
theorem skipComments (before : c.Before tokens)
    : c.skipComments = c := by
  cases text : c.ahead with
  | nil => exact skipComments_nil text
  | cons entry rest =>
      have visible : entry.token.isSignificant :=
        before.significant _ (before.ahead ▸ List.mem_map_of_mem (text ▸ List.mem_cons_self))
      rw [skipComments_cons text, if_neg (by simpa [Token.isSignificant] using visible)]

/-- Past its token a cursor is before the others, and all else is as it was. -/
theorem advance (before : c.Before (token :: tokens))
    : c.advance.Before tokens ∧ c.advance.lastStop = token.span.stop
      ∧ c.advance.sourceLength = c.sourceLength := by
  obtain ⟨entry, entries, text, rfl, others⟩ := List.map_eq_cons_iff.mp before.ahead
  have moved
      : { c.step entry entries with
          lastIndex := c.behind.size
          lastStop := entry.token.span.stop }.Before tokens :=
    ⟨others, before.complete, fun token among =>
      before.significant token (List.mem_cons_of_mem _ among)⟩
  rw [Cursor.advance_cons text, moved.skipComments]
  exact ⟨moved, rfl, rfl⟩

end Cursor.Before

-----------------------------------------------------------------------------------------
-- What follows an operand
-----------------------------------------------------------------------------------------

/-- The signs that go on with an operand or an expression without being binary operators. -/
def otherSigns : List String :=
  [".", "[", "(", "?.", "++", "--", "?", ":", ",", ";", "=>"] ++ Scope.assignmentOperators

/-- What is at a cursor, if anything is, is a binary operator. -/
def Cursor.AtOperator (c : Cursor) : Prop :=
  ∀ token, c.peek? = some token
    → (operatorLevel? token.text).isSome ∧ (token.kind = .punctuator ∨ token.kind = .identifier)

theorem not_mem_otherSigns {symbol : String} (operator : (operatorLevel? symbol).isSome)
    : symbol ∉ otherSigns := by
  unfold operatorLevel? at operator
  split at operator
  case h_26 => cases operator
  all_goals decide

namespace Cursor.AtOperator

variable {c : Cursor} {text : String} {texts : List String}

theorem not_sees (operator : c.AtOperator) (other : text ∈ otherSigns)
    : c.sees text = false := by
  rw [sees, Option.any_eq_false]
  intro token here
  have apart : token.text ≠ text := fun same =>
    not_mem_otherSigns (operator token here).1 (same ▸ other)
  simp [Token.isTerminal, apart]

theorem not_any (operator : c.AtOperator) (others : ∀ text ∈ texts, text ∈ otherSigns)
    : c.peek?.any (·.isPunctuatorIn texts) = false := by
  rw [Option.any_eq_false]
  intro token here
  have apart : token.text ∉ texts := fun among =>
    not_mem_otherSigns (operator token here).1 (others _ among)
  simp [Token.isPunctuatorIn, apart]

end Cursor.AtOperator

-----------------------------------------------------------------------------------------
-- Operands
-----------------------------------------------------------------------------------------

section Names

variable {scope : Scope} {c : Cursor} {offset : Nat} {name : String} {tokens : List Token}

/-- No suffix follows where an operator may be. -/
theorem withSuffixes_none (operator : c.AtOperator) (object : Expression)
    : scope.withSuffixes true object c = .ok (object, c) := by
  have none : scope.suffix? true c = .ok (none, c) := by
    rw [Scope.suffix?, Parser.get_bind]
    cases here : c.peek? with
    | none => rfl
    | some token =>
        obtain ⟨level, kind⟩ := operator token here
        have other := not_mem_otherSigns level
        rcases kind with sign | word
        · simp only [sign]
          generalize token.text = text at other
          split
          case h_5 => rfl
          all_goals exact absurd (by simp [*, otherSigns]) other
        · simp only [word]
          rfl
  have stops : scope.suffixRound true c = .ok (.stop, c) := by
    rw [Scope.suffixRound, Parser.bind_of_ok none]
    rfl
  have rounds : Parser.rounds (scope.suffixRound true) c = .ok ([], c) :=
    Parser.roundsUpTo_of_stop stops _
  rw [Scope.withSuffixes, Parser.bind_of_ok rounds]
  rfl

/-- A plain name is an operand. -/
theorem operand_name (before : c.Before (nameToken offset name :: tokens)) (plain : name ∉ keywords)
    : scope.operand c = .ok (nameAt offset name, c.advance) := by
  have here : c.peek? = some (nameToken offset name) := before.peek?
  have kept : Parser.rereadAt .punctuator .regex c = .ok ((), c) :=
    Parser.rereadAt_ok.mpr (.inr ⟨by simp [Cursor.atKind, here, nameToken], rfl⟩)
  have start : Parser.start c = .ok (offset, c) := Parser.start_ok.mpr ⟨_, here, rfl, rfl⟩
  have word : scope.wordOperand name c = .ok (.identifier, c.advance) := by
    rw [Scope.wordOperand, Parser.get_bind]
    split
    case h_9 =>
      have other : (name == "async") = false := by
        rw [beq_eq_false_iff_ne]
        rintro rfl
        exact absurd (by decide) plain
      rw [other]
      rfl
    all_goals exact absurd (by decide) plain
  have span : Parser.spanFrom offset c.advance
      = .ok (⟨offset, offset + name.utf8ByteSize⟩, c.advance) := by
    rw [Parser.spanFrom, before.advance.2.1]
    simp [nameToken]
  rw [Scope.operand, Parser.bind_of_ok kept, Parser.bind_of_ok start, Parser.get_bind, here]
  exact (Parser.bind_of_ok word _).trans (Parser.bind_of_ok span _)

/-- A plain name in front of an operator, or at the end, is an operand by itself. -/
theorem unaryNode_name (before : c.Before (nameToken offset name :: tokens))
    (plain : name ∉ keywords) (operator : c.advance.AtOperator)
    : scope.unaryNode c = .ok (nameAt offset name, c.advance) := by
  have here : c.peek? = some (nameToken offset name) := before.peek?
  have start : Parser.start c = .ok (offset, c) := Parser.start_ok.mpr ⟨_, here, rfl, rfl⟩
  have other {word : String} (keyword : word ∈ keywords) : name ≠ word := fun same =>
    plain (same ▸ keyword)
  have lhs : scope.leftHandSide c = .ok (nameAt offset name, c.advance) := by
    have notNew : c.sees "new" = false := by
      simp [Cursor.sees, here, Token.isTerminal, nameToken, other (by decide : "new" ∈ keywords)]
    rw [Scope.leftHandSide, Parser.bind_of_ok start, Parser.get_bind, if_neg (by simp [notNew]),
      Parser.bind_of_ok (operand_name before plain)]
    exact withSuffixes_none operator _
  have postfixed : scope.postfixed c = .ok (nameAt offset name, c.advance) := by
    have noUpdate
        : c.advance.peek?.any (fun token => Scope.isUpdateOperator token && !token.newlineBefore)
          = false := by
      have none := operator.not_any (by decide : ∀ text ∈ ["++", "--"], text ∈ otherSigns)
      rw [Option.any_eq_false] at none ⊢
      exact fun token there => by simp [Scope.isUpdateOperator, none token there]
    rw [Scope.postfixed, Parser.bind_of_ok start, Parser.bind_of_ok lhs, Parser.get_bind, noUpdate]
    rfl
  have notUpdate : Scope.isUpdateOperator (nameToken offset name) = false := rfl
  have notUnary : Scope.isUnaryOperator c (nameToken offset name) = false := by
    simp [Scope.isUnaryOperator, nameToken, other (by decide : "typeof" ∈ keywords),
      other (by decide : "void" ∈ keywords), other (by decide : "delete" ∈ keywords),
      other (by decide : "await" ∈ keywords)]
  rw [Scope.unaryNode, Parser.bind_of_ok start, Parser.get_bind, here]
  simp only [notUpdate, notUnary]
  exact postfixed

end Names

-----------------------------------------------------------------------------------------
-- Chains
-----------------------------------------------------------------------------------------

theorem binaryOperator?_operatorToken {symbol : String} (operator : (operatorLevel? symbol).isSome)
    (offset : Nat)
    : binaryOperator? true (operatorToken offset symbol) = some symbol := by
  cases word : isWordOperator symbol with
  | true =>
      have either : (symbol == "instanceof" || symbol == "in") = true := word
      simp [binaryOperator?, operatorToken, word, either]
  | false => simp [binaryOperator?, operatorToken, word, operator]

/-- A chain has room for its spaces. -/
theorem length_linkChars (links : Links)
    : 2 * links.length ≤ Text.byteLength (linkChars links) := by
  induction links with
  | nil => exact Nat.zero_le _
  | cons link links ih =>
      have space : ' '.utf8Size = 1 := rfl
      simp only [linkChars, List.flatMap_cons, List.cons_append, Text.byteLength_cons,
        Text.byteLength_append, space, List.length_cons] at ih ⊢
      omega

section Chain

variable {scope : Scope} {level : Level} {c : Cursor} {offset : Nat} {first : String}
  {links : Links}

/-- Behind a name of a chain stands an operator, or nothing. -/
theorem Cursor.Before.atOperator (before : c.Before (linkTokens offset links))
    (chain : IsChain first links)
    : c.AtOperator := by
  intro token here
  rw [before.peek?] at here
  cases links with
  | nil => cases here
  | cons link links =>
      obtain rfl := Option.some.inj here
      refine ⟨chain.tail.1, ?_⟩
      cases word : isWordOperator link.1 <;> simp [operatorToken, word]

/-- An operator and the name behind it. -/
theorem operation_link {symbol name : String} (nests : scope.deeper = level.above)
    (chain : IsChain first ((symbol, name) :: links))
    (before : c.Before (linkTokens offset ((symbol, name) :: links)))
    : scope.operation true c
      = .ok (.more (symbol, nameAt (offset + 1 + symbol.utf8ByteSize + 1) name),
          c.advance.advance) := by
  obtain ⟨operator, others⟩ := chain.tail
  have here : c.peek? = some (operatorToken (offset + 1) symbol) := before.peek?
  have behind := before.advance.1
  have kept : Parser.rereadAt .regex .division c = .ok ((), c) := by
    refine Parser.rereadAt_ok.mpr (.inr ⟨?_, rfl⟩)
    cases word : isWordOperator symbol <;> simp [Cursor.atKind, here, operatorToken, word]
  have start : Parser.start c.advance = .ok (_, c.advance) :=
    Parser.start_ok.mpr ⟨_, behind.peek?, rfl, rfl⟩
  have operand : scope.unary c.advance
      = .ok (nameAt (offset + 1 + symbol.utf8ByteSize + 1) name, c.advance.advance) := by
    rw [Scope.unary, nests]
    exact unaryNode_name behind others.first.plain (behind.advance.1.atOperator others)
  have moved : Parser.advance c = .ok ((), c.advance) := rfl
  rw [Scope.operation, Parser.bind_of_ok kept, Parser.get_bind, here]
  simp only [Option.bind_some, binaryOperator?_operatorToken operator]
  rw [Parser.bind_of_ok moved, Parser.bind_of_ok start, Parser.bind_of_ok operand]
  rfl

/-- At the end of a source no operator follows. -/
theorem operation_end (ended : c.Before [])
    : scope.operation true c = .ok (.stop, c) := by
  have none : c.peek? = none := ended.peek?
  have kept : Parser.rereadAt .regex .division c = .ok ((), c) :=
    Parser.rereadAt_ok.mpr (.inr ⟨by simp [Cursor.atKind, none], rfl⟩)
  rw [Scope.operation, Parser.bind_of_ok kept, Parser.get_bind, none]
  rfl

/-- The operators of a chain are taken one after another, each with its operand. -/
theorem rounds_links (nests : scope.deeper = level.above) (chain : IsChain first links)
    (before : c.Before (linkTokens offset links)) {fuel : Nat} (enough : links.length ≤ fuel)
    : ∃ c', Parser.roundsUpTo (scope.operation true) fuel c = .ok (linksFrom offset links, c')
        ∧ c'.Before [] := by
  induction links generalizing c offset first fuel with
  | nil => exact ⟨c, Parser.roundsUpTo_of_stop (operation_end before) fuel, before⟩
  | cons link links ih =>
      obtain ⟨symbol, name⟩ := link
      obtain ⟨fewer, rfl⟩ := Nat.exists_eq_add_of_lt (Nat.lt_of_lt_of_le (Nat.succ_pos _) enough)
      have behind := before.advance.1.advance.1
      obtain ⟨c', run, ended⟩ := ih chain.tail.2 behind (Nat.le_of_succ_le_succ enough)
      refine ⟨c', ?_, ended⟩
      rw [Parser.roundsUpTo_of_more (operation_link nests chain before)]
      exact Parser.map_ok.mpr ⟨_, run, rfl⟩

end Chain

/-- The tree of a chain of names. -/
def chainTree (first : String) (links : Links) : OperatorTree Expression :=
  .ofChain (nameAt 0 first) (linksFrom first.utf8ByteSize links)

/-- A cursor stands at the start of a source that is a chain. -/
structure Cursor.AtChain (c : Cursor) (first : String) (links : Links) : Prop where
  chain : IsChain first links
  before : c.Before (nameToken 0 first :: linkTokens first.utf8ByteSize links)
  length : c.sourceLength = (chainText first links).utf8ByteSize

namespace Cursor.AtChain

variable {scope : Scope} {level : Level} {c : Cursor} {first : String} {links : Links}

theorem here (onChain : c.AtChain first links)
    : c.peek? = some (nameToken 0 first) :=
  onChain.before.peek?

theorem start (onChain : c.AtChain first links)
    : Parser.start c = .ok (0, c) :=
  Parser.start_ok.mpr ⟨_, onChain.here, rfl, rfl⟩

/-- A chain begins with no keyword. -/
theorem not_sees (onChain : c.AtChain first links) {word : String} (keyword : word ∈ keywords)
    : c.sees word = false := by
  have other : first ≠ word := fun same => onChain.chain.first.plain (same ▸ keyword)
  simp [sees, onChain.here, Token.isTerminal, nameToken, other]

/-- Behind its first name a chain goes on with an operator, or ends. -/
theorem not_seesNth (onChain : c.AtChain first links) {text : String} (other : text ∈ otherSigns)
    : c.seesNth 1 text = false := by
  rw [seesNth, peekAt?_one onChain.here rfl]
  exact (onChain.before.advance.1.atOperator onChain.chain).not_sees other

/-- There is fuel for all operators of a chain. -/
theorem length_le_remaining (onChain : c.AtChain first links)
    : links.length ≤ c.advance.remaining + 1 := by
  have whole : c.advance.sourceLength
      = first.utf8ByteSize + Text.byteLength (linkChars links) := by
    rw [onChain.before.advance.2.2, onChain.length, ← Text.byteLength_toList, toList_chainText,
      Text.byteLength_append, Text.byteLength_toList]
  have room := length_linkChars links
  cases links with
  | nil => exact Nat.zero_le _
  | cons link links =>
      have place : c.advance.offset = first.utf8ByteSize + 1 := by
        simp only [Cursor.offset, onChain.before.advance.1.peek?]
        rfl
      rw [List.length_cons] at room
      rw [remaining, place, whole, List.length_cons]
      omega

/-- The operands and operators of a chain become its tree. -/
theorem binary (onChain : c.AtChain first links) (nests : scope.deeper = level.above)
    : ∃ c', scope.binary true c = .ok ((chainTree first links).toExpression, c') ∧ c'.Before [] := by
  have behind := onChain.before.advance.1
  have operand : scope.unary c = .ok (nameAt 0 first, c.advance) := by
    rw [Scope.unary, nests]
    exact unaryNode_name onChain.before onChain.chain.first.plain (behind.atOperator onChain.chain)
  obtain ⟨c', run, ended⟩ := rounds_links nests onChain.chain behind onChain.length_le_remaining
  have run : Parser.rounds (scope.operation true) c.advance
      = .ok (linksFrom first.utf8ByteSize links, c') := run
  refine ⟨c', ?_, ended⟩
  rw [Scope.binary, Parser.bind_of_ok onChain.start, Parser.bind_of_ok operand, Parser.bind_of_ok run]
  rfl

/-- A chain is an expression without a condition, an assignment or an arrow. -/
theorem assignmentNode (onChain : c.AtChain first links) (nests : scope.deeper = level.above)
    : ∃ c', scope.assignmentNode true c = .ok ((chainTree first links).toExpression, c')
        ∧ c'.Before [] := by
  obtain ⟨c', run, ended⟩ := onChain.binary nests
  have noTest : Parser.eat "?" c' = .ok (false, c') :=
    Parser.eat_ok.mpr (.inr ⟨rfl, by simp [sees, ended.peek?], rfl⟩)
  have conditional : scope.conditional true c = .ok ((chainTree first links).toExpression, c') := by
    rw [Scope.conditional, Parser.bind_of_ok onChain.start, Parser.bind_of_ok run,
      Parser.bind_of_ok noTest]
    rfl
  have notArrow : c.arrowAt 0 = false := by
    rw [arrowAt, onChain.before.peekAt? 0]
    exact onChain.not_seesNth (by decide)
  refine ⟨c', ?_, ended⟩
  rw [Scope.assignmentNode, Parser.get_bind]
  simp only [onChain.not_sees (by decide : "async" ∈ keywords),
    onChain.not_sees (by decide : "yield" ∈ keywords), notArrow, Bool.false_and, Bool.and_false,
    Bool.or_self, Bool.false_eq_true, if_false]
  rw [Parser.bind_of_ok onChain.start, Parser.bind_of_ok conditional, Parser.get_bind, ended.peek?]
  rfl

/-- A chain is an expression statement. -/
theorem statementForm (onChain : c.AtChain first links) (nests : scope.deeper = level.above.above)
    : ∃ c', scope.statementForm c = .ok (.expression (chainTree first links).toExpression, c')
        ∧ c'.Before [] := by
  have inside : (Scope.mk level.above scope.inGenerator).deeper = level.above := rfl
  obtain ⟨c', run, ended⟩ := onChain.assignmentNode inside
  have item : scope.assignment true c = .ok ((chainTree first links).toExpression, c') := by
    rw [Scope.assignment, nests]
    exact run
  have noComma : Parser.eat "," c' = .ok (false, c') :=
    Parser.eat_ok.mpr (.inr ⟨rfl, by simp [sees, ended.peek?], rfl⟩)
  have single : Parser.itemThenComma (scope.assignment true) c
      = .ok (.last (chainTree first links).toExpression, c') := by
    rw [Parser.itemThenComma, Parser.bind_of_ok item, Parser.bind_of_ok noComma]
    rfl
  have expression : scope.expression true c = .ok ((chainTree first links).toExpression, c') := by
    have single : Parser.commaSeparated (scope.assignment true) c
        = .ok ([(chainTree first links).toExpression], c') := Parser.rounds_of_last single
    rw [Scope.expression, Parser.bind_of_ok onChain.start, Parser.bind_of_ok single]
    rfl
  have semicolon : Parser.consumeSemicolon c' = .ok ((), c') :=
    Parser.consumeSemicolon_ok.mpr (.inr ⟨by simp [sees, ended.peek?],
      fun token here => (by simp [ended.peek?] at here), rfl⟩)
  have statement : scope.expressionStatement c
      = .ok (.expression (chainTree first links).toExpression, c') := by
    rw [Scope.expressionStatement, Parser.bind_of_ok expression, Parser.bind_of_ok semicolon]
    rfl
  have plain : scope.plainWordStatement c c
      = .ok (.expression (chainTree first links).toExpression, c') := by
    rw [Scope.plainWordStatement, onChain.not_seesNth (by decide)]
    exact statement
  have word : scope.wordStatement first c
      = .ok (.expression (chainTree first links).toExpression, c') := by
    have other := onChain.chain.first.plain
    rw [Scope.wordStatement, Parser.get_bind]
    split
    case h_21 => exact plain
    all_goals exact absurd (by decide) other
  refine ⟨c', ?_, ended⟩
  rw [Scope.statementForm, Parser.get_bind, onChain.here]
  exact word

/-- A source that is a chain is one statement. -/
theorem program (onChain : c.AtChain first links)
    : ∃ placement span c',
        program c
          = .ok (⟨[.expression (chainTree first links).toExpression placement], span⟩, c') := by
  have nests : (Scope.mk (Level.ofDepth 255) false).deeper = (Level.ofDepth 253).above.above := rfl
  obtain ⟨c', form, ended⟩ := onChain.statementForm nests
  have done : c'.peek? = none := ended.peek?
  have statement : ∃ placement, Scope.top.statement c
      = .ok (.expression (chainTree first links).toExpression placement, c') := by
    refine ⟨⟨⟨⟨0, max c'.lastStop 0⟩, ⟨c.index, c'.lastIndex⟩⟩, false, false⟩, ?_⟩
    change Scope.statementNode ⟨Level.ofDepth 255, false⟩ c = _
    rw [Scope.statementNode, Parser.get_bind, Parser.bind_of_ok onChain.start, Parser.bind_of_ok form]
    rfl
  obtain ⟨placement, statement⟩ := statement
  have one : statementRound c
      = .ok (.more (.expression (chainTree first links).toExpression placement), c') := by
    rw [statementRound, Parser.get_bind, onChain.here]
    exact Parser.map_ok.mpr ⟨_, statement, rfl⟩
  have noMore : statementRound c' = .ok (.stop, c') := by
    rw [statementRound, Parser.get_bind, done]
    rfl
  have statements : statements c
      = .ok ([.expression (chainTree first links).toExpression placement], c') := by
    rw [statements, Parser.rounds, Parser.roundsUpTo_of_more one]
    exact Parser.map_ok.mpr ⟨_, Parser.roundsUpTo_of_stop noMore _, rfl⟩
  obtain ⟨marked, body⟩ : ∃ marked,
      markBody [.expression (chainTree first links).toExpression placement]
        = [.expression (chainTree first links).toExpression marked] :=
    ⟨_, rfl⟩
  refine ⟨marked, ⟨0, c'.sourceLength⟩, c', ?_⟩
  rw [Grammar.program, Parser.bind_of_ok statements, Parser.get_bind, ended.complete, body]
  rfl

end Cursor.AtChain

-----------------------------------------------------------------------------------------
-- Sources
-----------------------------------------------------------------------------------------

theorem symbols_linksFrom (offset : Nat) (links : Links)
    : (linksFrom offset links).map Prod.fst = links.map Prod.fst := by
  induction links generalizing offset with
  | nil => rfl
  | cons link links ih => rw [linksFrom, List.map_cons, List.map_cons, ih]

theorem significant_linkTokens (offset : Nat) (links : Links)
    : ∀ token ∈ linkTokens offset links, token.isSignificant := by
  induction links generalizing offset with
  | nil => nofun
  | cons link links ih =>
      rw [linkTokens, List.forall_mem_cons, List.forall_mem_cons]
      refine ⟨?_, rfl, ih _⟩
      cases word : isWordOperator link.1
        <;> simp [operatorToken, word, Token.isSignificant, TokenKind.isComment]

/-- A source that is a chain begins with the first name of the chain. -/
theorem atChain_ofSource {first : String} {links : Links} (chain : IsChain first links)
    : (Cursor.ofSource (chainText first links)).AtChain first links := by
  obtain ⟨tokens, complete⟩ := scan_chain chain
  have before
      : Cursor.Before {
          behind := #[]
          ahead := (TokenList.scan (.ofSource (chainText first links)) .guessed).entries
          fault := (TokenList.scan (.ofSource (chainText first links)) .guessed).fault
          lastIndex := 0
          lastStop := 0
          sourceLength := (chainText first links).utf8ByteSize
          arrowEnds := [] } (nameToken 0 first :: linkTokens first.utf8ByteSize links) :=
    ⟨tokens, complete, List.forall_mem_cons.mpr ⟨rfl, significant_linkTokens _ links⟩⟩
  rw [Cursor.ofSource, Cursor.ofTokens, before.skipComments]
  exact ⟨chain, before, rfl⟩

end Grammar

open Grammar in
/-- A source that is a chain of plain names and binary operators, with single spaces between them,
is read as one expression statement. Its tree is the only one with these operands and operators in
their order that groups them by the levels of the operators, and the only one that a loop builds
which climbs over the levels. -/
theorem parse_chain (first : String) (links : List (String × String))
    (names : ∀ name ∈ first :: links.map Prod.snd, IsOrdinary name)
    (operators : ∀ symbol ∈ links.map Prod.fst, (operatorLevel? symbol).isSome)
    : ∃ (tree : OperatorTree Expression) (placement : Placement) (span : Span) (stop : Cursor),
        (∀ other : OperatorTree Expression, other = tree
          ↔ other.Grouped
            ∧ other.operands
              = nameAt 0 first :: (linksFrom first.utf8ByteSize links).map Prod.snd
            ∧ other.symbols = links.map Prod.fst)
        ∧ (∀ other : OperatorTree Expression, other = tree
          ↔ OperatorTree.Climbs 0 (.operand (nameAt 0 first)) (linksFrom first.utf8ByteSize links)
              other [])
        ∧ program (.ofSource (chainText first links))
          = .ok (⟨[.expression tree.toExpression placement], span⟩, stop)
        ∧ parse (chainText first links)
          = if (chainText first links).utf8ByteSize > TokenList.maxSourceLength then
              .error .sourceTooLarge
            else
              .ok {
                source := chainText first links
                tokens := stop.tokens
                program := ⟨[.expression tree.toExpression placement], span⟩
                arrowEnds := stop.arrowEnds.reverse } := by
  obtain ⟨placement, span, stop, run⟩ := (atChain_ofSource ⟨names, operators⟩).program
  refine ⟨chainTree first links, placement, span, stop, fun other => ?_, fun other => ?_, run, ?_⟩
  · rw [chainTree, OperatorTree.eq_ofChain_iff, symbols_linksFrom]
  · exact OperatorTree.climbs_iff.symm
  · rw [Cursor.ofSource, Scanner.ofSource] at run
    simp only [parse, parseWith, TokenList.ofSourceWith]
    split
    · rfl
    · simp only [bind, Except.bind, run]
      rfl

open Grammar in
/-- Of two powers in a row the second groups first, and both group before the difference. -/
theorem parse_chain_of_power_of_power
    : (∀ name ∈ ["a", "b", "c", "d"], IsOrdinary name)
      ∧ (∀ symbol ∈ ["-", "**", "**"], (operatorLevel? symbol).isSome)
      ∧ ∃ tree : OperatorTree Expression,
          tree = .node (.operand (nameAt 0 "a")) "-"
            (.node (.operand (nameAt 4 "b")) "**"
              (.node (.operand (nameAt 9 "c")) "**" (.operand (nameAt 14 "d"))))
          ∧ OperatorTree.Climbs 0 (.operand (nameAt 0 "a"))
              [("-", nameAt 4 "b"), ("**", nameAt 9 "c"), ("**", nameAt 14 "d")] tree []
          ∧ ∃ placement span stop,
              program (.ofSource "a - b ** c ** d")
                = .ok (⟨[.expression tree.toExpression placement], span⟩, stop) := by
  have names : ∀ name ∈ ["a", "b", "c", "d"], IsOrdinary name := by
    simp only [List.forall_mem_cons, List.not_mem_nil, false_implies, implies_true, and_true]
    refine ⟨?_, ?_, ?_, ?_⟩
    all_goals exact ⟨⟨⟨_, _, rfl, by decide⟩, .of_all (by decide)⟩, by decide⟩
  have operators : ∀ symbol ∈ ["-", "**", "**"], (operatorLevel? symbol).isSome := by decide
  obtain ⟨tree, placement, span, stop, unique, climbs, run, -⟩ :=
    parse_chain "a" [("-", "b"), ("**", "c"), ("**", "d")] names operators
  have text : chainText "a" [("-", "b"), ("**", "c"), ("**", "d")] = "a - b ** c ** d" := by decide
  have grouped : (OperatorTree.node (.operand (nameAt 0 "a")) "-"
      (.node (.operand (nameAt 4 "b")) "**"
        (.node (.operand (nameAt 9 "c")) "**" (.operand (nameAt 14 "d"))))) = tree := by
    have fits (inner : String) (power : some "**" = some inner) (outer : String)
        (right : OperatorTree.FitsRight "**" outer) : OperatorTree.FitsRight inner outer :=
      Option.some.inj power ▸ right
    refine (unique _).mpr ⟨?_, rfl, rfl⟩
    exact .node (.operand _) (.node (.operand _) (.node (.operand _) (.operand _) nofun nofun) nofun
      fun inner power => fits inner power "**" (by decide)) nofun
      fun inner power => fits inner power "-" (by decide)
  rw [text] at run
  exact ⟨names, operators, tree, grouped.symm, (climbs tree).mp rfl, placement, span, stop, run⟩

end ScriptStyle
