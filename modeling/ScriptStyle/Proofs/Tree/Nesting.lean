import ScriptStyle.Proofs.Tree.Nodes

/-!
How deep the nodes of a tree lie in each other. Operations between two operands and operands with
something behind them are links of chains, which may be of any length; of the other statements
and expressions a way down a tree leads through a number that can be bounded.
-/

namespace ScriptStyle.Node

/-- Whether a node is an operation between two operands, or an operand with something behind it. -/
def isLink : Node → Bool
  | expression (.binary ..) | expression (.call ..) | expression (.member ..)
  | expression (.index ..) | expression (.taggedTemplate ..) => true
  | _ => false

/-- Whether a node is a statement or an expression, but no link of a chain. -/
def counts : Node → Bool
  | statement _ => true
  | expression value => !(expression value).isLink
  | _ => false

/-- A way down a tree: a node, one of those that it consists of, and so on. -/
inductive Path : Node → List Node → Prop
  | here (node : Node) : Path node [node]
  | down {node child : Node} {path : List Node} (direct : child ∈ node.children)
    (rest : Path child path) : Path node (node :: path)

/-- Every way down from a node leads through a limited number of statements and expressions,
links of chains not counted. -/
def NestsIn (bound : Nat) (node : Node) : Prop :=
  ∀ path, node.Path path → (path.filter counts).length ≤ bound

namespace NestsIn

variable {node : Node} {bound larger : Nat}

theorem mono (nests : node.NestsIn bound) (le : bound ≤ larger)
    : node.NestsIn larger :=
  fun path way => Nat.le_trans (nests path way) le

/-- A node adds one to what it consists of. -/
theorem counted (children : ∀ child ∈ node.children, child.NestsIn bound)
    : node.NestsIn (bound + 1) := by
  have one (path : List Node)
      : ((node :: path).filter counts).length ≤ (path.filter counts).length + 1 := by
    rw [List.filter_cons]
    split <;> simp
  intro path way
  cases way with
  | here => exact Nat.le_trans (one []) (Nat.le_add_left ..)
  | down direct rest => exact Nat.le_trans (one _) (Nat.succ_le_succ (children _ direct _ rest))

/-- A node that is not counted adds nothing. -/
theorem uncounted (free : node.counts = false)
    (children : ∀ child ∈ node.children, child.NestsIn bound)
    : node.NestsIn bound := by
  intro path way
  cases way with
  | here => simp [free]
  | down direct rest =>
      rw [List.filter_cons_of_neg (by simp [free])]
      exact children _ direct _ rest

end NestsIn

end ScriptStyle.Node
