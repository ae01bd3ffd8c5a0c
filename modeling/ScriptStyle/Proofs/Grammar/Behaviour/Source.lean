import ScriptStyle.Proofs.Grammar.Behaviour.Statement
import ScriptStyle.Proofs.Grammar.Coverage.Source

/-!
What the parsers of whole sources do. No line is broken where a production restricts it, but for
the value that is thrown, and errors point into the source.
-/

namespace ScriptStyle

open Node (Intact)

namespace Grammar

open ScriptStyle.Grammar.Parser

variable {source : String} {tokens : List Token}

/-- The level below the last fails everywhere, and each level is made of the next. -/
theorem Level.ofDepth_behaves (depth : Nat)
    : (Level.ofDepth depth).Behaves source tokens := by
  induction depth with
  | zero =>
      refine ⟨Level.ofDepth_covers 0, ?_, ?_, ?_, ?_, ?_⟩
      all_goals
        intros
        exact .tooDeep
  | succ depth behaves =>
      have deeper (inGenerator : Bool)
          : (Scope.mk (Level.ofDepth depth) inGenerator).deeper.Behaves source tokens := behaves
      exact {
        toCovers := Level.ofDepth_covers (depth + 1)
        statement_behaves := fun _ c => Scope.statementNode_behaves (deeper _) c
        assignment_behaves := fun _ allowIn c => Scope.assignmentNode_behaves (deeper _) allowIn c
        unary_behaves := fun _ c => Scope.unaryNode_behaves (deeper _) c
        heritage_behaves := fun _ c => Scope.leftHandSide_behaves (deeper _) c
        construct_behaves := fun _ c => Scope.construct_behaves (deeper _) c }

theorem program_behaves (c : Cursor)
    : Parser.Behaves source tokens c program
        fun found _ => ∀ value ∈ found.body, (Node.statement value).Intact tokens := by
  have round (c : Cursor)
      : Parser.Behaves source tokens c statementRound
          fun found _ => found.Holds fun value => (Node.statement value).Intact tokens := by
    refine .look ?_
    cases c.peek? with
    | none => exact .pure fun _ => trivial
    | some token =>
        exact (Scope.statement_behaves (Level.ofDepth_behaves maxDepth) c).map (g := Round.more)
          fun _ _ intact => intact
  refine .bind (.rounds round) fun body m => .look ?_
  cases fault : m.fault with
  | none =>
      refine .pure fun _ all marked among => ?_
      obtain ⟨value, inside, isDirective, rfl⟩ := mem_markBody among
      exact (all value inside).markedAs isDirective
  | some error => exact .fault fault

end Grammar

-----------------------------------------------------------------------------------------
-- Restricted productions
-----------------------------------------------------------------------------------------

/-- Whatever source is parsed, no line is broken where a node of its tree restricts it. -/
theorem ParsedSource.unbroken {source : String} {parsed : ParsedSource} {node : Node}
    (run : parse source = .ok parsed) (contains : parsed.program.Contains node)
    : node.Unbroken parsed.tokens.toList := by
  obtain ⟨-, c', run, -, same, -⟩ := parse_ok.mp run
  have sound := Grammar.Cursor.ofSource_sound source
  obtain ⟨covered, ended⟩ := Grammar.program_covered sound run
  have whole : parsed.tokens.toList = c'.behind.toList := by
    rw [same, Grammar.Cursor.tokens, ended]
    simp
  obtain ⟨statement, member, within⟩ := contains
  have intact := (Grammar.program_behaves _).gives sound _ _ run (.behind covered.sound) statement
    member
  rw [whole]
  exact (intact.within within).own

/-- A line may be broken behind `throw`, which does not end the statement there. -/
theorem ParsedSource.broken_throw
    : ∃ (parsed : ParsedSource) (value : Expression) (placement : Placement) (first : Token),
        parse "throw\nx" = .ok parsed
          ∧ parsed.program.Contains (.statement (.throwing value placement))
          ∧ first ∈ parsed.tokens.toList ∧ first.span.start = value.span.start
          ∧ first.newlineBefore := by
  have shared : (parse "throw\nx").toOption.map
      (fun parsed => (parsed.program.body.map fun
          | .throwing value _ => some value.span.start
          | _ => none,
        parsed.tokens.toList.map fun token => (token.span.start, token.newlineBefore)))
      = some ([some 6], [(0, false), (6, true)]) := by
    decide +kernel
  obtain ⟨parsed, run, known⟩ := exists_ok_of_toOption_map shared
  obtain ⟨statements, listed⟩ := Prod.mk.inj known
  obtain ⟨statement, body, thrown⟩ := List.map_eq_singleton_iff.mp statements
  have second : ((6, true) : Nat × Bool) ∈
      parsed.tokens.toList.map fun token => (token.span.start, token.newlineBefore) := by
    simp [listed]
  obtain ⟨first, member, same⟩ := List.mem_map.mp second
  obtain ⟨start, broken⟩ := Prod.mk.inj same
  split at thrown
  · next value placement =>
      exact ⟨parsed, value, placement, first, run, ⟨_, by simp [body], .refl _⟩, member,
        start.trans (Option.some.inj thrown).symm, broken⟩
  · cases thrown

-----------------------------------------------------------------------------------------
-- Errors
-----------------------------------------------------------------------------------------

/-- A source that is not too large is no script because its program is none. -/
theorem program_error_of_parse {source : String} {error : SyntaxError}
    (small : source.utf8ByteSize ≤ TokenList.maxSourceLength) (failed : parse source = .error error)
    : Grammar.program (.ofSource source) = .error error := by
  simp only [parse, parseWith, TokenList.ofSourceWith, if_neg (Nat.not_lt.mpr small)] at failed
  change Except.bind (Grammar.program (.ofSource source)) _ = _ at failed
  cases run : Grammar.program (.ofSource source) with
  | error fault => simpa [run, Except.bind] using failed
  | ok found => simp [run, Except.bind, pure, Except.pure] at failed

theorem pointsInto_of_parse {source : String} {error : SyntaxError}
    (small : source.utf8ByteSize ≤ TokenList.maxSourceLength) (failed : parse source = .error error)
    : error.PointsInto source := by
  have sound := Grammar.Cursor.ofSource_sound source
  have behaves
      : Grammar.Parser.Behaves source [] (.ofSource source) Grammar.program fun found _ =>
          ∀ value ∈ found.body, (Node.statement value).Intact [] :=
    Grammar.program_behaves _
  exact behaves.fails sound error (program_error_of_parse small failed)

theorem pointsInto_of_tokenize {source : String} {error : SyntaxError}
    (small : source.utf8ByteSize ≤ TokenList.maxSourceLength)
    (failed : tokenize source = .error error)
    : error.PointsInto source := by
  simp only [tokenize, TokenList.ofSource, TokenList.ofSourceWith, if_neg (Nat.not_lt.mpr small),
    bind, Except.bind] at failed
  cases fault : (TokenList.scan (.ofText .standard source.toList) .guessed).fault with
  | none => simp [fault] at failed
  | some found =>
      simp only [fault, Except.error.injEq] at failed
      exact TokenList.pointsInto_of_scan .nil (failed ▸ fault)

end ScriptStyle
