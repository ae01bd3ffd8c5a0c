import ScriptStyle.Proofs.Grammar.Cursors
import ScriptStyle.Proofs.Grammar.Precedence
import ScriptStyle.Proofs.Scanner.Words

/-!
A statement that is a chain of binary operators. Names with operators between them, written with
single spaces, are read as one expression statement, and its tree is the one that groups the
names by the levels of the operators.
-/

namespace ScriptStyle.Grammar

-----------------------------------------------------------------------------------------
-- The text of a chain
-----------------------------------------------------------------------------------------

/-- The reserved words and contextual keywords that are read as something else than a plain name
where a statement or an operand begins, or after which a slash begins a regular expression. -/
def keywords : List String := [
  "async", "await", "break", "case", "class", "const", "continue", "debugger", "delete", "do",
  "else", "export", "extends", "false", "for", "function", "if", "import", "in", "instanceof",
  "let", "new", "null", "of", "return", "super", "switch", "this", "throw", "true", "try",
  "typeof", "var", "void", "while", "with", "yield"
]

/-- A name that is no keyword. -/
structure IsOrdinary (name : String) : Prop extends IsName name where
  plain : name ∉ keywords

/-- Operators, each with the name behind it. -/
abbrev Links := List (String × String)

/-- The text of a chain: names and operators in turn, with single spaces between them. -/
def chainText (first : String) (links : Links) : String :=
  " ".intercalate (first :: links.flatMap fun link => [link.1, link.2])

/-- A name at an offset, as an operand. -/
def nameAt (offset : Nat) (name : String) : Expression :=
  .identifier ⟨offset, offset + name.utf8ByteSize⟩

/-- The operators of a chain, each with the operand behind it; the name in front of them ends at
the given offset. -/
def linksFrom (offset : Nat) : Links → List (String × Expression)
  | [] => []
  | (symbol, name) :: links =>
      let start := offset + 1 + symbol.utf8ByteSize + 1
      (symbol, nameAt start name) :: linksFrom (start + name.utf8ByteSize) links

/-- The characters of the operators of a chain and the names behind them. -/
def linkChars (links : Links) : List Char :=
  links.flatMap fun link => ' ' :: (link.1.toList ++ ' ' :: link.2.toList)

theorem toList_chainText (first : String) (links : Links)
    : (chainText first links).toList = first.toList ++ linkChars links := by
  induction links generalizing first with
  | nil => simp [chainText, linkChars]
  | cons link links ih =>
      have rest := ih link.2
      simp only [chainText, String.toList_intercalate, List.flatMap_cons, List.map_cons,
        List.cons_append, List.nil_append, List.intercalate_cons_cons, linkChars] at rest ⊢
      rw [rest]
      simp

theorem endsWord_linkChars (links : Links)
    : EndsWord (linkChars links) := by
  intro c first
  cases links with
  | nil => cases first
  | cons link links => exact (Option.some.inj first).symm

-----------------------------------------------------------------------------------------
-- The tokens of a chain
-----------------------------------------------------------------------------------------

/-- A name at an offset, as a token. -/
def nameToken (offset : Nat) (name : String) : Token :=
  ⟨.identifier, ⟨offset, offset + name.utf8ByteSize⟩, name, false⟩

/-- An operator at an offset, as a token. -/
def operatorToken (offset : Nat) (symbol : String) : Token :=
  ⟨if isWordOperator symbol then .identifier else .punctuator,
    ⟨offset, offset + symbol.utf8ByteSize⟩, symbol, false⟩

/-- The tokens of the operators of a chain and of the names behind them; the name in front of
them ends at the given offset. -/
def linkTokens (offset : Nat) : Links → List Token
  | [] => []
  | (symbol, name) :: links =>
      let start := offset + 1 + symbol.utf8ByteSize + 1
      operatorToken (offset + 1) symbol :: nameToken start name
        :: linkTokens (start + name.utf8ByteSize) links

/-- The names of a chain are ordinary, and its operators are binary ones. -/
structure IsChain (first : String) (links : Links) : Prop where
  names : ∀ name ∈ first :: links.map Prod.snd, IsOrdinary name
  operators : ∀ symbol ∈ links.map Prod.fst, (operatorLevel? symbol).isSome

theorem IsChain.first {first : String} {links : Links} (chain : IsChain first links)
    : IsOrdinary first :=
  chain.names first List.mem_cons_self

theorem IsChain.tail {first : String} {link : String × String} {links : Links}
    (chain : IsChain first (link :: links))
    : (operatorLevel? link.1).isSome ∧ IsChain link.2 links :=
  ⟨chain.operators _ List.mem_cons_self,
    fun name among => chain.names name (List.mem_cons_of_mem _ among),
    fun symbol among => chain.operators symbol (List.mem_cons_of_mem _ among)⟩

/-- Behind a plain name a slash divides. -/
theorem IsOrdinary.not_operandWord {name : String} (ordinary : IsOrdinary name)
    : name ∉ SlashGuess.operandWords := fun among =>
  ordinary.plain ((by decide : ∀ word ∈ SlashGuess.operandWords, word ∈ keywords) name among)

/-- An operator that is a word is a name. -/
theorem isName_of_wordOperator {symbol : String} (word : isWordOperator symbol)
    : IsName symbol := by
  simp only [isWordOperator, Bool.or_eq_true, beq_iff_eq] at word
  rcases word with rfl | rfl
  all_goals exact ⟨⟨_, _, rfl, by decide⟩, .of_all (by decide)⟩

open Scanner in
/-- An operator behind a plain name becomes one token. -/
theorem next_operator {symbol name : String} (offset : Nat) (rest : List Char)
    (operator : (operatorLevel? symbol).isSome) (ordinary : IsOrdinary name)
    : ∃ kind,
        (inLine offset (some (.identifier, name))
            (' ' :: (symbol.toList ++ ' ' :: rest))).next .guessed
          = (.ok (some (operatorToken (offset + 1) symbol)),
              inLine (offset + 1 + symbol.utf8ByteSize) (some (kind, symbol)) (' ' :: rest)) := by
  cases word : isWordOperator symbol with
  | true =>
      refine ⟨.identifier, ?_⟩
      rw [operatorToken, if_pos word]
      exact next_name 1 (isName_of_wordOperator word) fun c first => (Option.some.inj first).symm
  | false =>
      refine ⟨.punctuator, ?_⟩
      rw [operatorToken, if_neg (by simp [word])]
      exact next_symbol 1 operator (by simp [word]) ordinary.not_operandWord

/-- A token that is read is the first of those that are read from its place on. -/
theorem tokens_of_next {scanner after : Scanner} {token : Token} {reading : SlashReading}
    (read : scanner.next reading = (.ok (some token), after))
    : (TokenList.scan scanner reading).tokens = token :: (TokenList.scan after .guessed).tokens
      ∧ (TokenList.scan scanner reading).fault = (TokenList.scan after .guessed).fault := by
  obtain ⟨entries, fault⟩ := TokenList.scan_of_next read
  exact ⟨by rw [TokenList.tokens, entries, List.map_cons, ← TokenList.tokens], fault⟩

open Scanner in
/-- Behind a name the rest of a chain is read token by token. -/
theorem scan_links {first : String} {links : Links} (chain : IsChain first links) (offset : Nat)
    : (TokenList.scan (inLine offset (some (.identifier, first)) (linkChars links)) .guessed).tokens
        = linkTokens offset links
      ∧ (TokenList.scan (inLine offset (some (.identifier, first)) (linkChars links)) .guessed).fault
        = none := by
  induction links generalizing first offset with
  | nil =>
      rw [TokenList.scan, TokenList.scanUpTo, next_of_nil rfl]
      exact ⟨rfl, rfl⟩
  | cons link links ih =>
      obtain ⟨symbol, name⟩ := link
      obtain ⟨operator, others⟩ := chain.tail
      have text : linkChars ((symbol, name) :: links)
          = ' ' :: (symbol.toList ++ ' ' :: (name.toList ++ linkChars links)) := by
        simp [linkChars]
      obtain ⟨kind, readOperator⟩ :=
        next_operator offset (name.toList ++ linkChars links) operator chain.first
      have readName
          : (inLine (offset + 1 + symbol.utf8ByteSize) (some (kind, symbol))
              (' ' :: (name.toList ++ linkChars links))).next .guessed
            = (.ok (some (nameToken (offset + 1 + symbol.utf8ByteSize + 1) name)), _) :=
        next_name 1 others.first.toIsName (endsWord_linkChars links)
      obtain ⟨tokens, fault⟩ := tokens_of_next readOperator
      obtain ⟨tokens', fault'⟩ := tokens_of_next readName
      obtain ⟨tokens'', complete⟩ :=
        ih others (offset + 1 + symbol.utf8ByteSize + 1 + name.utf8ByteSize)
      rw [text, tokens, tokens', tokens'', linkTokens]
      exact ⟨rfl, fault.trans (fault'.trans complete)⟩

open Scanner in
/-- The text of a chain is read token by token. -/
theorem scan_chain {first : String} {links : Links} (chain : IsChain first links)
    : (TokenList.scan (ofText .standard (chainText first links).toList) .guessed).tokens
        = nameToken 0 first :: linkTokens first.utf8ByteSize links
      ∧ (TokenList.scan (ofText .standard (chainText first links).toList) .guessed).fault = none := by
  have readFirst
      : (ofText .standard (chainText first links).toList).next .guessed
        = (.ok (some (nameToken 0 first)),
            inLine (0 + first.utf8ByteSize) (some (.identifier, first)) (linkChars links)) := by
    rw [toList_chainText]
    exact next_name 0 chain.first.toIsName (endsWord_linkChars links)
  rw [Nat.zero_add] at readFirst
  obtain ⟨tokens, fault⟩ := tokens_of_next readFirst
  obtain ⟨tokens', complete⟩ := scan_links chain first.utf8ByteSize
  exact ⟨tokens.trans (by rw [tokens']), fault.trans complete⟩

end ScriptStyle.Grammar
