import ScriptStyle.Proofs.Grammar.Coverage.Source
import ScriptStyle.Proofs.Grammar.Layout.Statement

/-!
How whole sources are laid out, at any depth of nesting: the statements of a program share out its
tokens, those of a block and the members of a class share out the tokens between their braces, and
spans lie in each other as the nodes of the tree do.
-/

namespace ScriptStyle

namespace Grammar

open ScriptStyle.Grammar.Parser

variable {origin : Scanner} {c c' : Cursor}

/-- The level below the last succeeds nowhere, and each level is made of the next. -/
theorem Level.ofDepth_lays (depth : Nat)
    : (Level.ofDepth depth).Lays origin := by
  induction depth with
  | zero =>
      refine ⟨Level.ofDepth_covers 0, ?_, ?_, ?_, ?_, ?_⟩
        <;> intros <;> simp_all [Level.ofDepth, Level.bottom, tooDeep_ok]
  | succ depth lays =>
      have deeper (inGenerator : Bool) : (Scope.mk (Level.ofDepth depth) inGenerator).deeper.Lays
          origin := lays
      exact {
        toCovers := Level.ofDepth_covers (depth + 1)
        statement_laid := fun sound run => Scope.statementNode_laid (deeper _) sound run
        assignment_laid := fun sound run => Scope.assignmentNode_laid (deeper _) sound run
        unary_laid := fun sound run => Scope.unaryNode_laid (deeper _) sound run
        heritage_laid := fun sound run => Scope.leftHandSide_laid (deeper _) sound run
        construct_laid := fun sound new run => Scope.construct_laid (deeper _) sound new run }

/-- What one round of the statements of a program lays out. -/
theorem statementRound_laid {found : Round Statement} (sound : c.Sound origin)
    (run : statementRound c = .ok (found, c'))
    : (found = .stop ∧ c = c')
      ∨ ∃ statement, found = .more statement
          ∧ ElementLaid origin c (.statement statement) statement.extent c' := by
  simp only [statementRound, bind_ok, get_ok] at run
  obtain ⟨_, _, ⟨rfl, rfl⟩, run⟩ := run
  cases here : c.peek? with
  | none =>
      simp only [here, pure_ok] at run
      exact .inl ⟨run.1.symm, run.2⟩
  | some token =>
      simp only [here, map_ok] at run
      obtain ⟨statement, read, rfl⟩ := run
      exact .inr ⟨statement, rfl, Scope.statement_laid (Level.ofDepth_lays maxDepth) sound read⟩

/-- The statements of a program are laid out up to the end of the tokens. -/
theorem program_laid {program : Program} (sound : c.Sound origin)
    (run : Grammar.program c = .ok (program, c'))
    : Elements origin c (program.body.map .statement) (program.body.map Statement.extent) c'
        ∧ program.span = ⟨0, c'.sourceLength⟩ := by
  simp only [Grammar.program, statements, bind_ok, get_ok] at run
  obtain ⟨body, m, repeated, _, _, ⟨rfl, rfl⟩, run⟩ := run
  have rounds := rounds_ok statementRound_covers sound repeated
  cases fault : m.fault with
  | some fault' =>
      simp only [fault] at run
      cases run
  | none =>
      simp only [fault, pure_ok] at run
      obtain ⟨rfl, rfl⟩ := run
      exact ⟨(rounds.elements statementRound_laid sound).markBody, rfl⟩

end Grammar

/-- The layout of a source: how the tokens, the spans and the notes of arrow functions belong to
the nodes of the tree. -/
structure ParsedSource.LaidOut (parsed : ParsedSource) : Prop where
  /-- The statements of the program have all the significant tokens of the source. -/
  statements
    : Partitions parsed.tokens.toList (parsed.program.body.map (·.extent.tokens)) 0
        parsed.tokens.size
  /-- Blocks, those of functions and static blocks among them, and the bodies of classes. -/
  bodies
    : ∀ (node : Node) (body : Body), parsed.program.Contains node → node.body? = some body →
        ∃ opening closing, body.BracedAt parsed.tokens.toList opening closing
  extents
    : ∀ (node : Node) (extent : Extent), parsed.program.Contains node → node.extent? = some extent →
        extent.Exact parsed.tokens.toList
  program : parsed.program.span = ⟨0, parsed.source.utf8ByteSize⟩
  inProgram
    : ∀ node, parsed.program.Contains node → ∀ span ∈ node.spans,
        parsed.program.span.encloses span
  inOuter
    : ∀ outer inner : Node, parsed.program.Contains outer → inner.Within outer →
        ∀ around, outer.span? = some around → ∀ span ∈ inner.spans, around.encloses span
  /-- What is noted of arrow functions are the braces that close their blocks. -/
  arrowEnds
    : ∀ index, index ∈ parsed.arrowEnds
        ↔ ∃ params body isAsync span opening,
            parsed.program.Contains (.expression (.arrowBlock params body isAsync span))
              ∧ body.toBody.BracedAt parsed.tokens.toList opening index

/-- The statements of a source are laid out up to the end of its tokens. -/
theorem ParsedSource.elements_of_parse {source : String} {parsed : ParsedSource}
    (run : parse source = .ok parsed)
    : ∃ c', Grammar.Elements (.ofSource parsed.source) (.ofSource parsed.source)
          (parsed.program.body.map .statement) (parsed.program.body.map Statement.extent) c'
        ∧ c'.Completes (.ofSource parsed.source) parsed.tokens.toList
        ∧ c'.index = parsed.tokens.size ∧ parsed.arrowEnds = c'.arrowEnds.reverse
        ∧ parsed.program.span = ⟨0, parsed.source.utf8ByteSize⟩
        ∧ c'.lastStop ≤ parsed.source.utf8ByteSize := by
  obtain ⟨-, c', run, same, tokens, notes⟩ := parse_ok.mp run
  subst same
  have sound := Grammar.Cursor.ofSource_sound parsed.source
  obtain ⟨-, ended⟩ := Grammar.program_covered sound run
  obtain ⟨elements, span⟩ := Grammar.program_laid sound run
  have whole : parsed.tokens.toList = c'.behind.toList := by
    rw [tokens, Grammar.Cursor.tokens, ended]
    simp
  have size : c'.index = parsed.tokens.size := by
    rw [← Array.length_toList, whole, Array.length_toList, Grammar.Cursor.index]
  have length : c'.sourceLength = parsed.source.utf8ByteSize :=
    elements.sound.length.trans sound.length.symm
  have inside := elements.sound.lastStop_le_offset
  exact ⟨c', elements, whole ▸ .behind elements.sound, size, notes, by rw [span, length],
    length ▸ inside.1.trans inside.2⟩

/-- The nodes of a source lie in its span and agree with its tokens. -/
theorem ParsedSource.fits_of_parse {source : String} {parsed : ParsedSource} {node : Node}
    (run : parse source = .ok parsed) (contains : parsed.program.Contains node)
    : ∃ outer, node.Fits parsed.tokens.toList outer ∧ parsed.program.span.encloses outer := by
  obtain ⟨c', elements, complete, -, -, span, inside⟩ := elements_of_parse run
  obtain ⟨statement, member, within⟩ := contains
  have fits : (Node.statement statement).Fits parsed.tokens.toList parsed.program.span := by
    refine (elements.fits _ complete _ (List.mem_map_of_mem member)).mono ?_
    rw [span]
    exact Span.encloses_iff.mpr ⟨Nat.zero_le _, inside⟩
  exact ⟨_, fits.within within, Node.encloses_span? fun _ => fits.own⟩

/-- Whatever source is parsed, its tokens and spans are laid out as its tree is. -/
theorem ParsedSource.laid_out {source : String} {parsed : ParsedSource}
    (run : parse source = .ok parsed)
    : parsed.LaidOut := by
  obtain ⟨c', elements, complete, size, notes, span, -⟩ := elements_of_parse run
  have located {node : Node} (contains : parsed.program.Contains node) := fits_of_parse run contains
  constructor
  case statements =>
    have partitions := elements.partitions _ complete
    rw [List.map_map, size] at partitions
    refine partitions.widen (Nat.zero_le _) (size ▸ elements.index_le) (Nat.le_refl _)
      (significantIndices_eq_nil fun index _ below found => ?_) (by simp [significantIndices])
    rw [(complete.of_moves elements.toMoves).getElem? below] at found
    obtain ⟨token, there, significant⟩ := Option.any_eq_true .. |>.mp found
    have isComment := Grammar.Cursor.isComment_of_behind (List.mem_of_getElem? there)
    simp [Token.isSignificant, isComment] at significant
  case bodies =>
    intro node body contains found
    obtain ⟨_, ⟨-, -, -, body, -⟩, -⟩ := located contains
    exact body _ found
  case extents =>
    intro node extent contains found
    obtain ⟨_, ⟨-, -, extent, -, -⟩, -⟩ := located contains
    exact (extent _ found).1
  case program => exact span
  case inProgram =>
    intro node contains span among
    obtain ⟨outer, fits, around⟩ := located contains
    exact Span.encloses_trans around (fits.encloses among)
  case inOuter =>
    intro outer inner contains within around found span among
    obtain ⟨_, fits, -⟩ := located contains
    exact fits.inner_encloses (.refl outer) within found among
  case arrowEnds =>
    intro index
    rw [notes, List.mem_reverse, elements.arrows _ complete index]
    constructor
    · rintro (none | ⟨_, among, params, body, isAsync, span, opening, within, braced⟩)
      · cases none
      · obtain ⟨statement, member, rfl⟩ := List.mem_map.mp among
        exact ⟨params, body, isAsync, span, opening, ⟨statement, member, within⟩, braced⟩
    · rintro ⟨params, body, isAsync, span, opening, ⟨statement, member, within⟩, braced⟩
      exact .inr ⟨_, List.mem_map_of_mem member, params, body, isAsync, span, opening, within, braced⟩

/-- An arrow function around a class with a static block. -/
theorem ParsedSource.laid_out_of_nested
    : ∃ parsed, parse "/**/ () => \x7b class A \x7b static \x7b a \x7d \x7d \x7d\nb" = .ok parsed
        ∧ parsed.LaidOut ∧ parsed.program.body.map (·.extent.tokens) = [⟨1, 13⟩, ⟨14, 14⟩]
        ∧ parsed.arrowEnds = [13] := by
  have shared : (parse "/**/ () => \x7b class A \x7b static \x7b a \x7d \x7d \x7d\nb").toOption.map
      (fun parsed => (parsed.program.body.map (·.extent.tokens), parsed.arrowEnds))
      = some ([⟨1, 13⟩, ⟨14, 14⟩], [13]) := by
    decide +kernel
  obtain ⟨parsed, run, known⟩ := exists_ok_of_toOption_map shared
  obtain ⟨statements, notes⟩ := Prod.mk.inj known
  exact ⟨parsed, run, laid_out run, statements, notes⟩

end ScriptStyle
