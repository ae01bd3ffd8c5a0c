import ScriptStyle.Proofs.Tree.Marks
import ScriptStyle.Proofs.Tree.Nesting

/-!
The shape of a tree: how far its nodes nest in each other, and how the statements below its root
are marked. The root itself has no mark until it is taken into the body of a function.
-/

namespace ScriptStyle.Node

/-- A tree nests in a bound, and the statements below its root are marked as they should be. -/
structure GrownIn (bound : Nat) (node : Node) : Prop where
  nests : node.NestsIn bound
  marks : ∀ inner : Node, inner.Within node → inner.Marks

/-- The root of such a tree has no mark. -/
structure Shaped (bound : Nat) (node : Node) : Prop extends node.GrownIn bound where
  unmarked : node.IsUnmarked

/-- A block is the body of a function. -/
structure BodyShaped (bound : Nat) (body : Block) : Prop extends (block body).GrownIn bound where
  marked : IsMarkedBody body.body

/-- Whether a node is one that never has a mark, nor a body with marks. -/
def isPlain : Node → Bool
  | statement _ | block _ | function _ | expression (.arrowBlock _ _ _ _) => false
  | _ => true

variable {node : Node} {bound larger : Nat}

theorem isFunction_of_isPlain (plain : node.isPlain)
    : node.isFunction = false := by
  cases node with
  | expression value => cases value <;> first | rfl | cases plain
  | function => cases plain
  | _ => rfl

theorem isUnmarked_of_isPlain (plain : node.isPlain)
    : node.IsUnmarked := by
  cases node <;> trivial

namespace GrownIn

theorem mono (grown : node.GrownIn bound) (le : bound ≤ larger)
    : node.GrownIn larger :=
  ⟨grown.nests.mono le, grown.marks⟩

theorem counted (own : node.Marks) (children : ∀ child ∈ node.children, child.GrownIn bound)
    : node.GrownIn (bound + 1) where
  nests := .counted fun child direct => (children child direct).nests
  marks inner within := by
    cases within with
    | refl => exact own
    | step direct deeper => exact (children _ direct).marks inner deeper

theorem uncounted (free : node.counts = false) (own : node.Marks)
    (children : ∀ child ∈ node.children, child.GrownIn bound)
    : node.GrownIn bound where
  nests := .uncounted free fun child direct => (children child direct).nests
  marks inner within := by
    cases within with
    | refl => exact own
    | step direct deeper => exact (children _ direct).marks inner deeper

/-- A statement with a mark is as far from the ground as without. -/
theorem markedAs {value : Statement} (grown : (statement value).GrownIn bound) (isDirective : Bool)
    : (statement (value.markedAs isDirective)).GrownIn bound where
  nests path way := by
    cases way with
    | here => simpa [List.filter_cons, counts] using grown.nests _ (.here _)
    | down direct rest =>
        have way := Path.down (children_markedAs value isDirective ▸ direct) rest
        simpa [List.filter_cons, counts] using grown.nests _ way
  marks inner within := by
    cases within with
    | refl => exact (grown.marks _ (.refl _)).of_markedAs isDirective
    | step direct deeper =>
        exact grown.marks inner (.step (children_markedAs value isDirective ▸ direct) deeper)

end GrownIn

namespace Shaped

theorem mono (shaped : node.Shaped bound) (le : bound ≤ larger)
    : node.Shaped larger :=
  ⟨shaped.toGrownIn.mono le, shaped.unmarked⟩

/-- What nodes without marks make up has nothing marked in it. -/
theorem marks_of_children (unlike : node.isFunction = false)
    (children : ∀ child ∈ node.children, child.Shaped bound)
    : node.Marks :=
  .of_unmarked unlike fun child direct => (children child direct).unmarked

/-- A node adds one to what it consists of. -/
theorem counted (plain : node.isPlain) (children : ∀ child ∈ node.children, child.Shaped bound)
    : node.Shaped (bound + 1) :=
  ⟨.counted (marks_of_children (isFunction_of_isPlain plain) children)
    fun child direct => (children child direct).toGrownIn, isUnmarked_of_isPlain plain⟩

/-- A node that is not counted adds nothing. -/
theorem uncounted (plain : node.isPlain) (free : node.counts = false)
    (children : ∀ child ∈ node.children, child.Shaped bound)
    : node.Shaped bound :=
  ⟨.uncounted free (marks_of_children (isFunction_of_isPlain plain) children)
    fun child direct => (children child direct).toGrownIn, isUnmarked_of_isPlain plain⟩

theorem of_statement {value : Statement} (unmarked : value.IsUnmarked)
    (children : ∀ child ∈ ofStatement value, child.Shaped bound)
    : (statement value).Shaped (bound + 1) :=
  ⟨.counted (marks_of_children rfl children) fun child direct => (children child direct).toGrownIn,
    unmarked⟩

theorem of_block {value : Block}
    (elements : ∀ element ∈ value.body, (statement element).Shaped bound)
    : (block value).Shaped bound := by
  refine ⟨.uncounted rfl (.of_block value) fun child direct => ?_,
    fun element among => (elements element among).unmarked⟩
  obtain ⟨element, among, rfl⟩ := List.mem_map.mp (children_block value ▸ direct)
  exact (elements element among).toGrownIn

end Shaped

/-- Statements that are marked as a body have what they had below them. -/
theorem grownIn_of_mem_markBody {body : List Statement}
    (elements : ∀ element ∈ body, (statement element).Shaped bound)
    : ∀ element ∈ markBody body, (statement element).GrownIn bound := by
  intro element among
  obtain ⟨unmarked, found, isDirective, rfl⟩ := mem_markBody among
  exact (elements unmarked found).markedAs isDirective

namespace BodyShaped

variable {body : Block} {params : List Expression}

theorem mono (shaped : BodyShaped bound body) (le : bound ≤ larger)
    : BodyShaped larger body :=
  ⟨shaped.toGrownIn.mono le, shaped.marked⟩

/-- The statements of a block are marked when it becomes the body of a function. -/
theorem asBody (elements : ∀ element ∈ body.body, (statement element).Shaped bound)
    : BodyShaped bound body.asBody := by
  refine ⟨.uncounted rfl (.of_block _) fun child direct => ?_, isMarkedBody_markBody body.body⟩
  obtain ⟨element, among, rfl⟩ := List.mem_map.mp (children_block body.asBody ▸ direct)
  exact grownIn_of_mem_markBody elements element among

theorem children (shaped : BodyShaped bound body)
    (all : ∀ value ∈ params, (expression value).Shaped bound)
    : ∀ child ∈ params.map expression ++ [block body], child.GrownIn bound := by
  rw [List.forall_mem_append, List.forall_mem_map, List.forall_mem_singleton]
  exact ⟨fun value among => (all value among).toGrownIn, shaped.toGrownIn⟩

/-- A function adds nothing to its parameters and its body. -/
theorem function (shaped : BodyShaped bound body)
    (all : ∀ value ∈ params, (expression value).Shaped bound) (isAsync isGenerator : Bool)
    : (Node.function ⟨params, body, isAsync, isGenerator⟩).Shaped bound :=
  ⟨.uncounted rfl (.of_body rfl rfl shaped.marked) (shaped.children all), trivial⟩

/-- An arrow function adds one to its parameters and its body. -/
theorem arrowBlock (shaped : BodyShaped bound body)
    (all : ∀ value ∈ params, (expression value).Shaped bound) (isAsync : Bool) (span : Span)
    : (expression (.arrowBlock params body isAsync span)).Shaped (bound + 1) :=
  ⟨.counted (.of_body rfl rfl shaped.marked) (shaped.children all), trivial⟩

end BodyShaped

end ScriptStyle.Node
