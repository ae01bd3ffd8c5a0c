import ScriptStyle.ParsedSource
import ScriptStyle.Proofs.Grammar.Coverage.Statement

/-!
Coverage by whole sources, at any depth of nesting: the literals and the semicolons in the tree
of a source are those among its tokens, no two constructs end at one token, and each part agrees
with the tokens.
-/

namespace ScriptStyle

namespace Grammar

open ScriptStyle.Grammar.Parser

variable {origin : Scanner} {c c' : Cursor}

/-- The level below the last succeeds nowhere, and each level is made of the next. -/
theorem Level.ofDepth_covers (depth : Nat)
    : (Level.ofDepth depth).Covers origin := by
  induction depth with
  | zero =>
      constructor <;> intros <;> simp_all [Level.ofDepth, Level.bottom, tooDeep_ok]
  | succ depth covers =>
      have deeper (inGenerator : Bool) : (Scope.mk (Level.ofDepth depth) inGenerator).deeper.Covers
          origin := covers
      exact {
        statement := fun sound run => Scope.statementNode_read (deeper _) sound run
        assignment := fun sound run => Scope.assignmentNode_read (deeper _) sound run
        unary := fun sound run => Scope.unaryNode_read (deeper _) sound run
        heritage := fun sound run => Scope.leftHandSide_read (deeper _) sound run
        construct := fun sound other run => Scope.construct_read (deeper _) sound other run }

theorem Scope.top_covers
    : Scope.top.deeper.Covers origin :=
  Level.ofDepth_covers maxDepth

/-- What one round of the statements of a program finds. -/
theorem statementRound_cases {found : Round Statement} (sound : c.Sound origin)
    (run : statementRound c = .ok (found, c'))
    : (found = .stop ∧ c = c' ∧ c.peek? = none)
      ∨ ∃ statement, found = .more statement ∧ StatementRead origin c statement c' := by
  simp only [statementRound, bind_ok, get_ok] at run
  obtain ⟨_, _, ⟨rfl, rfl⟩, run⟩ := run
  cases here : c.peek? with
  | none =>
      simp only [here, pure_ok] at run
      exact .inl ⟨run.1.symm, run.2, rfl⟩
  | some token =>
      simp only [here, map_ok] at run
      obtain ⟨statement, read, rfl⟩ := run
      exact .inr ⟨statement, rfl, Scope.statement_read Scope.top_covers sound read⟩

theorem statementRound_covers
    : Round.Covers origin statementRound (Statement.shown .program) where
  covered := by
    intro c c' found sound run
    rcases statementRound_cases sound run with ⟨rfl, rfl, -⟩ | ⟨statement, rfl, read⟩
    · exact .refl sound
    · exact read.covered _
  rises := by
    intro c c' found sound run goesOn
    rcases statementRound_cases sound run with ⟨rfl, -⟩ | ⟨statement, rfl, read⟩
    · cases goesOn
    · exact read.rises

/-- A program is read up to the end of the tokens. -/
theorem program_covered {program : Program} (sound : c.Sound origin)
    (run : Grammar.program c = .ok (program, c'))
    : Covered origin c program.shown c' ∧ c'.ahead = [] := by
  simp only [Grammar.program, statements, bind_ok, get_ok] at run
  obtain ⟨body, m, repeated, _, _, ⟨rfl, rfl⟩, run⟩ := run
  have rounds := rounds_ok statementRound_covers sound repeated
  have covered := rounds.covered statementRound_covers sound
  rw [← shownStatements_eq] at covered
  have ended : m.ahead = [] := by
    clear covered repeated run
    induction rounds with
    | stop run =>
        rcases statementRound_cases sound run with ⟨-, rfl, none⟩ | ⟨_, equal, -⟩
        · simpa [Cursor.peek?] using none
        · cases equal
    | last run =>
        rcases statementRound_cases sound run with ⟨equal, -⟩ | ⟨_, equal, -⟩ <;> cases equal
    | more run _ ih => exact ih (statementRound_covers.covered sound run).sound
  cases fault : m.fault with
  | some fault' =>
      simp only [fault] at run
      cases run
  | none =>
      simp only [fault, pure_ok] at run
      obtain ⟨rfl, rfl⟩ := run
      exact ⟨covered.congr (shown_markStatements true body .program), ended⟩

-----------------------------------------------------------------------------------------
-- Parsed sources
-----------------------------------------------------------------------------------------

/-- A cursor before a source stands in it. -/
theorem Cursor.ofTokens_sound (scanner : Scanner) (start : scanner.offset = 0)
    : (Cursor.ofTokens (TokenList.scan scanner .guessed) (Text.byteLength scanner.rest)).Sound
        scanner := by
  refine (Placed.skipComments ⟨⟨scanner, .guessed, .nil, rfl, rfl⟩, ?_, ?_⟩).1
  · simp [start]
  · exact .inl ⟨rfl, rfl, by simp⟩

/-- Before the first token of a source there are only comments. -/
theorem Cursor.isComment_of_behind {list : TokenList} {length : Nat} {token : Token}
    (member : token ∈ (Cursor.ofTokens list length).behind.toList)
    : token.kind.isComment := by
  simp only [Cursor.ofTokens, Cursor.skipComments, List.map_toArray, Array.toList_append,
    List.nil_append, List.mem_map] at member
  obtain ⟨entry, taken, rfl⟩ := member
  have isComment := List.mem_takeWhile_imp taken
  exact isComment

end Grammar

/-- The scanner at the start of a source. -/
def Scanner.ofSource (source : String) : Scanner :=
  .ofText .standard source.toList

/-- A cursor at the start of a source. -/
def Grammar.Cursor.ofSource (source : String) : Grammar.Cursor :=
  .ofTokens (.scan (.ofSource source) .guessed) source.utf8ByteSize

theorem Grammar.Cursor.ofSource_sound (source : String)
    : (Grammar.Cursor.ofSource source).Sound (.ofSource source) := by
  have length : source.utf8ByteSize = Text.byteLength (Scanner.ofSource source).rest :=
    (Text.byteLength_toList source).symm
  rw [Grammar.Cursor.ofSource, length]
  exact Grammar.Cursor.ofTokens_sound _ rfl

/-- A result of which something is known is no error. -/
theorem exists_ok_of_toOption_map {ε α β : Type} {given : Except ε α} {f : α → β} {value : β}
    (known : given.toOption.map f = some value)
    : ∃ result, given = .ok result ∧ f result = value := by
  cases given with
  | error => cases known
  | ok result => exact ⟨result, rfl, Option.some.inj known⟩

/-- A source is parsed by parsing the program in it. -/
theorem parse_ok {source : String} {parsed : ParsedSource}
    : parse source = .ok parsed
      ↔ source.utf8ByteSize ≤ TokenList.maxSourceLength
        ∧ ∃ c', Grammar.program (.ofSource source) = .ok (parsed.program, c')
          ∧ parsed.source = source ∧ parsed.tokens = c'.tokens
          ∧ parsed.arrowEnds = c'.arrowEnds.reverse := by
  simp only [parse, parseWith, TokenList.ofSourceWith, Grammar.Cursor.ofSource, Scanner.ofSource]
  by_cases large : source.utf8ByteSize > TokenList.maxSourceLength
  · rw [if_pos large]
    constructor
    · rintro ⟨⟩
    · rintro ⟨small, -⟩
      exact absurd small (Nat.not_le.mpr large)
  · rw [if_neg large]
    simp only [bind, Except.bind, pure, Except.pure]
    cases run : Grammar.program (.ofTokens (.scan (.ofText .standard source.toList) .guessed)
          source.utf8ByteSize) with
    | error fault => simp
    | ok result =>
        obtain ⟨program, c'⟩ := result
        obtain ⟨text, tokens, tree, arrowEnds⟩ := parsed
        simp only [Except.ok.injEq, ParsedSource.mk.injEq, Prod.mk.injEq]
        constructor
        · rintro ⟨rfl, rfl, rfl, rfl⟩
          exact ⟨Nat.not_lt.mp large, c', ⟨rfl, rfl⟩, rfl, rfl, rfl⟩
        · rintro ⟨-, _, ⟨rfl, rfl⟩, rfl, rfl, rfl⟩
          exact ⟨rfl, rfl, rfl, rfl⟩

/-- What a parsed source is made from: all its tokens, one after another to the end of the text,
and the tree whose literals and semicolons they are. -/
structure ParsedSource.Read (parsed : ParsedSource) : Prop where
  trail : ∃ stop, Trail (.ofSource parsed.source) parsed.tokens.toList stop
  literals
    : (literalTokens parsed.program.shown).Perm (parsed.tokens.toList.filterMap Token.literal?)
  ends : (endIndices parsed.program.shown).Nodup
  semicolons
    : ∀ index, (ownSemicolons parsed.tokens.toList parsed.program.shown).count index
        = if isSemicolonAt parsed.tokens.toList index then 1 else 0
  grounded : ∀ part ∈ parsed.program.shown, part.Grounded parsed.tokens.toList

/-- Whatever source is parsed, its tree covers its tokens. -/
theorem ParsedSource.read_of_parse {source : String} {parsed : ParsedSource}
    (run : parse source = .ok parsed)
    : parsed.Read := by
  obtain ⟨-, c', run, same, tokens, -⟩ := parse_ok.mp run
  subst same
  have sound := Grammar.Cursor.ofSource_sound parsed.source
  obtain ⟨covered, ended⟩ := Grammar.program_covered sound run
  have whole : parsed.tokens.toList = c'.behind.toList := by
    rw [tokens, Grammar.Cursor.tokens, ended]
    simp
  obtain ⟨stop, -, trail, -⟩ := covered.sound.trail
  rw [← whole] at trail
  have complete : c'.Completes (.ofSource parsed.source) parsed.tokens.toList :=
    ⟨⟨stop, trail⟩, whole ▸ List.prefix_rfl, fun _ => whole⟩
  have silent {token : Token} (member : token ∈ (Grammar.Cursor.ofSource parsed.source).behind.toList)
      : token.kind.isComment :=
    Grammar.Cursor.isComment_of_behind member
  refine ⟨⟨stop, trail⟩, List.perm_iff_count.mpr fun key => ?_, covered.ends, fun index => ?_,
    covered.grounded _ complete⟩
  · have none : (Grammar.Cursor.ofSource parsed.source).read = [] :=
      List.filterMap_eq_nil_iff.mpr fun token member => Token.literal?_of_isComment (silent member)
    rw [whole, ← Grammar.Cursor.read, ← covered.literals key, none, List.count_nil, Nat.add_zero]
  · rw [covered.semicolons _ complete index]
    cases semicolon : isSemicolonAt parsed.tokens.toList index with
    | false => simp
    | true =>
        have above : (Grammar.Cursor.ofSource parsed.source).index ≤ index := by
          by_contra below
          have inside := Nat.not_le.mp below
          rw [isSemicolonAt, (complete.of_ledger covered.toLedger).getElem? inside] at semicolon
          obtain ⟨token, there, isSemicolon⟩ := Option.any_eq_true .. |>.mp semicolon
          have := silent (List.mem_of_getElem? there)
          cases kind : token.kind <;> simp_all [TokenKind.isComment, Token.isPunctuator]
        have below : index < c'.index := by
          obtain ⟨token, there, -⟩ := Option.any_eq_true .. |>.mp semicolon
          obtain ⟨bound, -⟩ := List.getElem?_eq_some_iff.mp there
          simpa [whole, Grammar.Cursor.index] using bound
        simp [above, below]

end ScriptStyle
