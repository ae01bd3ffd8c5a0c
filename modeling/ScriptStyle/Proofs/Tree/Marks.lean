import ScriptStyle.Proofs.Tree.Nodes

/-!
Marked statements. A mark changes neither where a statement stands nor what is read off its tokens,
and the marks are all in which a marked body differs from the body before. In a tree the elements
of function bodies are to be marked, and no other statements.
-/

namespace ScriptStyle

-----------------------------------------------------------------------------------------
-- Statements
-----------------------------------------------------------------------------------------

namespace Statement

variable (statement : Statement) (isDirective : Bool)

@[simp] theorem placement_withPlacement (placement : Placement)
    : (statement.withPlacement placement).placement = placement := by
  cases statement <;> rfl

@[simp] theorem placement_markedAs
    : (statement.markedAs isDirective).placement = ⟨statement.extent, isDirective, true⟩ :=
  placement_withPlacement ..

@[simp] theorem extent_markedAs
    : (statement.markedAs isDirective).extent = statement.extent := by
  rw [extent, placement_markedAs]

@[simp] theorem isDirectiveShaped_markedAs
    : (statement.markedAs isDirective).isDirectiveShaped = statement.isDirectiveShaped := by
  cases statement with
  | expression value placement => cases value <;> rfl
  | _ => rfl

/-- What a marked statement says of the tokens, it says without its mark. -/
theorem part_markedAs (enclosing : Enclosing)
    : let part := Shown.statement statement enclosing
      let marked := Shown.statement (statement.markedAs isDirective) enclosing
      marked.ending? = part.ending? ∧ marked.empty? = part.empty? ∧ marked.tail? = part.tail?
        ∧ marked.isDoWhile = part.isDoWhile ∧ marked.isForLoop = part.isForLoop
        ∧ ∀ tokens, marked.separators tokens = part.separators tokens := by
  cases statement <;> exact ⟨rfl, rfl, rfl, rfl, rfl, fun _ => rfl⟩

theorem grounded_markedAs {enclosing : Enclosing} {tokens : List Token}
    (grounded : (Shown.statement statement enclosing).Grounded tokens)
    : (Shown.statement (statement.markedAs isDirective) enclosing).Grounded tokens := by
  obtain ⟨ending, empty, tail, doWhile, forLoop, separators⟩ :=
    statement.part_markedAs isDirective enclosing
  refine ⟨nofun, fun extent known => ?_, fun extent known => ?_, fun isFor => ?_⟩
  · obtain ⟨content, stop, token, ends⟩ := grounded.ending extent (ending ▸ known)
    refine ⟨content, stop, token, { ends with reads := ?_, tail := ?_, terminator := ?_ }⟩
    · rw [Shown.endParser, doWhile]
      exact ends.reads
    · rw [tail]
      exact ends.tail
    · rw [doWhile]
      exact ends.terminator
  · exact grounded.empty extent (empty ▸ known)
  · rw [separators]
    exact grounded.separators (forLoop ▸ isFor)

theorem shown_markedAs (enclosing : Enclosing)
    : SameLedger (statement.shown enclosing)
        ((statement.markedAs isDirective).shown enclosing) := by
  obtain ⟨ending, empty, -, -, -, separators⟩ := statement.part_markedAs isDirective enclosing
  have head {parts others : List Shown} (same : SameLedger parts others)
      : SameLedger (.statement statement enclosing :: parts)
          (.statement (statement.markedAs isDirective) enclosing :: others) := by
    refine .cons rfl ending (fun tokens => ?_)
      (fun tokens => statement.grounded_markedAs isDirective) same
    rw [Shown.semicolons, Shown.semicolons, ending, empty, separators]
  cases statement with
  | expression value placement =>
      cases value with
      | string span =>
          rw [shown, markedAs, withPlacement, shown]
          exact head (.string ..)
      | template literal span =>
          rw [shown, markedAs, withPlacement, shown]
          exact head (.template ..)
      | _ =>
          simp only [shown, markedAs, withPlacement]
          exact head (.refl _)
  | _ =>
      simp only [shown, markedAs, withPlacement]
      exact head (.refl _)

end Statement

-----------------------------------------------------------------------------------------
-- Bodies
-----------------------------------------------------------------------------------------

/-- A statement has no mark, neither as an element of a body nor as a directive. -/
def Statement.IsUnmarked (statement : Statement) : Prop :=
  statement.placement.isBodyLevel = false ∧ statement.placement.isDirective = false

/-- All statements are marked as elements of a body, and those are marked as directives that are
string literals alone, as are all before them. -/
def IsMarkedBody (body : List Statement) : Prop :=
  ∀ index statement, body[index]? = some statement →
    statement.placement.isBodyLevel
      ∧ (statement.placement.isDirective
        ↔ ∀ earlier ∈ body.take (index + 1), earlier.isDirectiveShaped)

variable (inPrologue : Bool) (body : List Statement)

/-- The prologue goes on for as long as there are string literals alone. -/
theorem getElem?_markStatements (index : Nat)
    : (markStatements inPrologue body)[index]?
      = body[index]?.map fun statement =>
          statement.markedAs
            (inPrologue && (body.take (index + 1)).all Statement.isDirectiveShaped) := by
  induction body generalizing inPrologue index with
  | nil => rfl
  | cons first others ih =>
      cases index with
      | zero => simp [markStatements]
      | succ index => simp [markStatements, ih, Bool.and_assoc]

/-- Marks have no influence on what the prologue is. -/
theorem all_take_markStatements (count : Nat)
    : ((markStatements inPrologue body).take count).all Statement.isDirectiveShaped
      = (body.take count).all Statement.isDirectiveShaped := by
  induction body generalizing inPrologue count with
  | nil => rfl
  | cons first others ih => cases count <;> simp [markStatements, ih]

variable {body}

/-- Each statement of a body is there with a mark, and there are no others. -/
theorem mem_markBody {marked : Statement} (among : marked ∈ markBody body)
    : ∃ statement ∈ body, ∃ isDirective, statement.markedAs isDirective = marked := by
  obtain ⟨index, here⟩ := List.mem_iff_getElem?.mp among
  rw [markBody, getElem?_markStatements] at here
  obtain ⟨statement, found, same⟩ := Option.map_eq_some_iff.mp here
  exact ⟨statement, List.mem_of_getElem? found, _, same⟩

theorem exists_mem_markBody {statement : Statement} (among : statement ∈ body)
    : ∃ isDirective, statement.markedAs isDirective ∈ markBody body := by
  obtain ⟨index, here⟩ := List.mem_iff_getElem?.mp among
  have found := getElem?_markStatements true body index
  rw [here, Option.map_some] at found
  exact ⟨_, List.mem_of_getElem? found⟩

@[simp] theorem map_extent_markBody (body : List Statement)
    : (markBody body).map Statement.extent = body.map Statement.extent := by
  refine List.ext_getElem? fun index => ?_
  rw [markBody, List.getElem?_map, getElem?_markStatements, Option.map_map, List.getElem?_map]
  exact congrArg (Option.map · _) (funext fun statement => statement.extent_markedAs _)

variable (body)

theorem isMarkedBody_markBody
    : IsMarkedBody (markBody body) := by
  intro index statement here
  rw [markBody, getElem?_markStatements] at here
  obtain ⟨unmarked, -, rfl⟩ := Option.map_eq_some_iff.mp here
  have same := all_take_markStatements true body (index + 1)
  rw [Statement.placement_markedAs, ← List.all_eq_true, markBody, same, Bool.true_and]
  exact ⟨rfl, .rfl⟩

theorem shown_markStatements (enclosing : Enclosing)
    : SameLedger (shownStatements enclosing body)
        (shownStatements enclosing (markStatements inPrologue body)) := by
  induction body generalizing inPrologue with
  | nil => exact .refl _
  | cons first others ih =>
      rw [markStatements, shownStatements, shownStatements]
      exact .append (first.shown_markedAs _ enclosing) (ih _)

theorem Block.shown_asBody (block : Block)
    : SameLedger block.shown block.asBody.shown := by
  obtain ⟨body, span⟩ := block
  rw [Block.shown, Block.asBody, Block.shown]
  exact shown_markStatements true body (.block span)

-----------------------------------------------------------------------------------------
-- Nodes
-----------------------------------------------------------------------------------------

namespace Node

/-- Whether a node is a function, of which a block is the body. -/
def isFunction : Node → Bool
  | function _ | expression (.arrowBlock _ _ _ _) => true
  | _ => false

/-- Whether a node is a block. -/
def isBlock : Node → Bool
  | block _ => true
  | _ => false

/-- A statement has no mark, or none of those in a block. -/
def IsUnmarked : Node → Prop
  | statement value => value.IsUnmarked
  | block value => ∀ element ∈ value.body, element.IsUnmarked
  | _ => True

/-- The statements that a node consists of have no marks, and of those in its blocks the ones in
the body of a function have. The elements of a block are left to what holds the block. -/
structure Marks (node : Node) : Prop where
  statements
    : node.isBlock = false → ∀ value, statement value ∈ node.children → value.IsUnmarked
  blocks
    : ∀ value, block value ∈ node.children →
        if node.isFunction then IsMarkedBody value.body else (block value).IsUnmarked

theorem exists_of_isBlock {node : Node} (isBlock : node.isBlock)
    : ∃ value, node = block value := by
  unfold Node.isBlock at isBlock
  split at isBlock
  · exact ⟨_, rfl⟩
  · cases isBlock

@[simp] theorem children_markedAs (value : Statement) (isDirective : Bool)
    : (statement (value.markedAs isDirective)).children = (statement value).children := by
  cases value <;> rfl

theorem children_block (value : Block)
    : (block value).children = value.body.map statement := by
  cases value
  rfl

namespace Marks

variable {node : Node}

/-- A node that is no function has nothing marked. -/
theorem of_unmarked (unlike : node.isFunction = false)
    (unmarked : ∀ child ∈ node.children, child.IsUnmarked)
    : node.Marks where
  statements _ value direct := unmarked (statement value) direct
  blocks value direct := by
    rw [if_neg (by simp [unlike])]
    exact unmarked (block value) direct

/-- The marks in a block are not those of the block. -/
theorem of_block (value : Block)
    : (block value).Marks := by
  refine ⟨nofun, fun inner direct => ?_⟩
  obtain ⟨_, -, equal⟩ := List.mem_map.mp (children_block value ▸ direct)
  cases equal

/-- A function has nothing marked but its body. -/
theorem of_body {params : List Expression} {body : Block} (isFunction : node.isFunction)
    (children : node.children = params.map expression ++ [block body])
    (marked : IsMarkedBody body.body)
    : node.Marks where
  statements _ value direct := by simp [children] at direct
  blocks value direct := by
    obtain rfl : value = body := by simpa [children] using direct
    rwa [if_pos isFunction]

/-- A mark on a statement says nothing of what the statement consists of. -/
theorem of_markedAs {value : Statement} (marks : (statement value).Marks) (isDirective : Bool)
    : (statement (value.markedAs isDirective)).Marks where
  statements _ inner direct := marks.statements rfl inner (children_markedAs value _ ▸ direct)
  blocks inner direct := marks.blocks inner (children_markedAs value _ ▸ direct)

end Marks

end Node

/-- The body of a program is marked as one, and so are those of all functions in it. -/
structure Program.Marked (program : Program) : Prop where
  body : IsMarkedBody program.body
  nodes : ∀ node, program.Contains node → node.Marks

end ScriptStyle
