import ScriptStyle.Proofs.Grammar.Coverage.Source
import ScriptStyle.Proofs.Grammar.Shape.Statement
import ScriptStyle.Proofs.Tree.Prologue

/-!
The shape of the trees of sources. The limit on nesting limits them: each level adds at most four
statements and expressions to a way down a tree. Chains of operators, calls and accesses go no
level deeper, so that their links are not limited and are left out of the count. At every depth
the bodies of functions are marked, and nothing else is.
-/

namespace ScriptStyle

namespace Grammar

open ScriptStyle.Grammar.Parser (Gives)

namespace Level

/-- The most that a level adds are the operators around an operand: one in front of it or behind
it, a construction, the operand itself and a sequence in it. -/
theorem Shapes.above {deeper : Level} {bound : Nat} (shaped : deeper.Shapes bound)
    : deeper.above.Shapes (bound + 4) := by
  have below (inGenerator : Bool) : (Scope.mk deeper inGenerator).deeper.Shapes bound := shaped
  exact {
    statement := fun inGenerator =>
      (Scope.statementNode_shaped (below inGenerator)).mono fun _ shaped => shaped.mono (by omega)
    assignment := fun inGenerator allowIn =>
      (Scope.assignmentNode_shaped (below inGenerator) allowIn).mono
        fun _ shaped => shaped.mono (by omega)
    unary := fun inGenerator => Scope.unaryNode_shaped (below inGenerator)
    heritage := fun inGenerator =>
      (Scope.leftHandSide_shaped (below inGenerator)).mono fun _ shaped => shaped.mono (by omega)
    construct := fun inGenerator =>
      (Scope.construct_shaped (below inGenerator)).mono fun _ shaped => shaped.mono (by omega) }

/-- The level below the last gives nothing, and each level adds to the next. -/
theorem ofDepth_shaped (depth : Nat)
    : (ofDepth depth).Shapes (4 * depth) := by
  induction depth with
  | zero =>
      constructor <;> intros <;> intro c value c' run <;> cases Parser.tooDeep_ok.mp run
  | succ depth shaped => exact shaped.above

end Level

theorem statements_shaped
    : Gives statements fun body =>
        ∀ value ∈ body, (Node.statement value).Shaped (4 * maxDepth) := by
  refine .rounds (.bind .any fun cursor _ => ?_)
  cases cursor.peek? with
  | none => exact .pure trivial
  | some token => exact ((Level.ofDepth_shaped maxDepth).statement _).map fun _ shaped => shaped

theorem program_shaped
    : Gives program fun found =>
        IsMarkedBody found.body
          ∧ ∀ value ∈ found.body, (Node.statement value).GrownIn (4 * maxDepth) := by
  refine .bind statements_shaped fun body all => .bind .any fun cursor _ => ?_
  cases cursor.fault with
  | none => exact .pure ⟨isMarkedBody_markBody body, Node.grownIn_of_mem_markBody all⟩
  | some fault =>
      intro c found c' run
      cases run

end Grammar

namespace ParsedSource

variable {source : String} {parsed : ParsedSource} (run : parse source = .ok parsed)

include run

/-- Whatever source is parsed, a way down its tree leads through at most four statements and
expressions a level of nesting, links of chains not counted. -/
theorem nests
    : ∀ value ∈ parsed.program.body, (Node.statement value).NestsIn (4 * Grammar.maxDepth) := by
  obtain ⟨-, c', run, -⟩ := parse_ok.mp run
  exact fun value among => ((Grammar.program_shaped _ _ _ run).2 value among).nests

/-- Whatever source is parsed, the bodies in its tree are marked and nothing else is. -/
theorem marked
    : parsed.program.Marked := by
  obtain ⟨-, c', run, -⟩ := parse_ok.mp run
  obtain ⟨body, all⟩ := Grammar.program_shaped _ _ _ run
  exact ⟨body, fun node ⟨value, among, within⟩ => (all value among).marks node within⟩

/-- Whatever source is parsed, each statement of its tree is marked as an element of the body of
the program or of a function, and as a directive, just where it is one, and is shown so. -/
theorem directives_marked
    : parsed.program.DirectivesMarked :=
  (marked run).directivesMarked

end ParsedSource

/-- Where a statement begins, with its marks as an element of a body and as a directive. -/
def Shown.marks? : Shown → Option (Nat × Bool × Bool)
  | .statement value _ =>
      some (value.extent.span.start, value.placement.isBodyLevel, value.placement.isDirective)
  | .classMember _ _ | .string _ _ | .template _ _ => none

/-- Directives in a program, a method and an arrow function, and strings that are none in a static
block, behind another statement, in a block and as the body of a conditional. -/
theorem ParsedSource.directives_marked_of_nested
    : ∃ parsed,
        parse "'a';class B\x7bstatic\x7b'c'\x7dd()\x7b'e';f;'g'\x7d\x7dh=>\x7b'i';\x7b'j'\x7dif(k)'l'\x7d"
          = .ok parsed
        ∧ parsed.program.DirectivesMarked
        ∧ parsed.program.shown.filterMap Shown.marks?
          = [(0, true, true), (4, true, false), (19, false, false), (27, true, true),
            (31, true, false), (33, true, false), (38, true, false), (42, true, true),
            (46, true, false), (47, false, false), (51, true, false), (56, false, false)] := by
  refine (exists_ok_of_toOption_map ?_).imp fun parsed ⟨run, marks⟩ =>
    ⟨run, directives_marked run, marks⟩
  decide +kernel

end ScriptStyle
