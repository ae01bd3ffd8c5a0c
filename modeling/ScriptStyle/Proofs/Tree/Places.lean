import Mathlib.Data.List.Basic
import Mathlib.Data.List.Induction
import Mathlib.Data.List.Perm.Subperm
import ScriptStyle.Proofs.Tree.Layout
import ScriptStyle.Proofs.Tree.Visits

/-!
Places in a tree. A place is given by the positions to take on the way down, the first of them
among the statements of the program. The walk comes to each place of a tree once.
-/

namespace ScriptStyle

/-- What stands at a place below a list of items, of which each has its children. -/
def placed? {α : Type} (children : α → List α) : List α → List Nat → Option α
  | _, [] => none
  | items, [index] => items[index]?
  | items, index :: next :: path =>
      items[index]?.bind fun item => placed? children (children item) (next :: path)

section Placed

variable {α β : Type} {children : α → List α} {items : List α} {item : α} {index : Nat}
  {path : List Nat}

theorem placed?_cons (deeper : path ≠ [])
    : placed? children items (index :: path)
      = items[index]?.bind fun item => placed? children (children item) path := by
  cases path with
  | nil => contradiction
  | cons => rfl

/-- What stands right below a place is a child of what stands there. -/
theorem placed?_concat (deeper : path ≠ [])
    : placed? children items (path ++ [index])
      = (placed? children items path).bind fun item => (children item)[index]? := by
  induction path generalizing items with
  | nil => contradiction
  | cons first rest ih =>
      cases rest with
      | nil => rfl
      | cons next rest =>
          rw [List.cons_append, placed?_cons (by simp), placed?_cons (by simp), Option.bind_assoc]
          exact Option.bind_congr fun item _ => ih (by simp)

theorem placed?_map {children' : β → List β} {f : α → β}
    (commutes : ∀ item, (children item).map f = children' (f item)) (items : List α)
    (path : List Nat)
    : (placed? children items path).map f = placed? children' (items.map f) path := by
  induction path generalizing items with
  | nil => rfl
  | cons index rest ih =>
      cases rest with
      | nil => exact (List.getElem?_map ..).symm
      | cons next rest =>
          rw [placed?_cons (by simp), placed?_cons (by simp), Option.map_bind, List.getElem?_map,
            Option.bind_map]
          exact Option.bind_congr fun item _ => by
            rw [Function.comp_apply, ih, commutes]
            rfl

/-- Whatever a step leads to from a reached item is at some place. -/
theorem exists_placed?_of_child (among : item ∈ items) {inner : α} {path : List Nat}
    (found : placed? children (children item) path = some inner)
    : ∃ path, placed? children items path = some inner := by
  obtain ⟨index, inside, rfl⟩ := List.mem_iff_getElem.mp among
  refine ⟨index :: path, ?_⟩
  have deeper : path ≠ [] := by
    rintro rfl
    cases found
  rw [placed?_cons deeper, List.getElem?_eq_getElem inside, Option.bind_some, found]

theorem placed?_cons_cases (found : placed? children items (index :: path) = some item)
    : ∃ top, items[index]? = some top
        ∧ (path = [] ∧ top = item ∨ placed? children (children top) path = some item) := by
  cases path with
  | nil => exact ⟨item, found, .inl ⟨rfl, rfl⟩⟩
  | cons next path =>
      obtain ⟨top, here, deeper⟩ := Option.bind_eq_some_iff.mp found
      exact ⟨top, here, .inr deeper⟩

theorem placed?_ne_nil (found : placed? children items path = some item)
    : path ≠ [] := by
  rintro rfl
  cases found

end Placed

-----------------------------------------------------------------------------------------
-- Nodes
-----------------------------------------------------------------------------------------

/-- The node at a place of a program. -/
def Program.nodeAt? (program : Program) (path : List Nat) : Option Node :=
  placed? Node.children (program.body.map .statement) path

namespace Node

variable {nodes : List Node} {node inner outer : Node} {path : List Nat}

/-- What stands at a place below some nodes is within one of them. -/
theorem exists_within_of_placed? (found : placed? children nodes path = some inner)
    : ∃ node ∈ nodes, inner.Within node := by
  induction path generalizing nodes with
  | nil => cases found
  | cons index rest ih =>
      cases rest with
      | nil => exact ⟨inner, List.mem_of_getElem? found, .refl inner⟩
      | cons next rest =>
          obtain ⟨node, here, deeper⟩ := Option.bind_eq_some_iff.mp found
          obtain ⟨child, direct, within⟩ := ih deeper
          exact ⟨node, List.mem_of_getElem? here, .step direct within⟩

theorem Within.exists_placed? (within : inner.Within node) (among : node ∈ nodes)
    : ∃ path, placed? children nodes path = some inner := by
  induction within generalizing nodes with
  | refl =>
      obtain ⟨index, inside, rfl⟩ := List.mem_iff_getElem.mp among
      exact ⟨[index], List.getElem?_eq_getElem inside⟩
  | step direct _ ih =>
      obtain ⟨path, found⟩ := ih direct
      exact exists_placed?_of_child among found

end Node

/-- The nodes of a program are those at its places. -/
theorem Program.contains_iff {program : Program} {node : Node}
    : program.Contains node ↔ ∃ path, program.nodeAt? path = some node := by
  constructor
  · rintro ⟨statement, among, within⟩
    exact within.exists_placed? (List.mem_map_of_mem among)
  · rintro ⟨path, found⟩
    obtain ⟨outer, among, within⟩ := Node.exists_within_of_placed? found
    obtain ⟨statement, element, rfl⟩ := List.mem_map.mp among
    exact ⟨statement, element, within⟩

/-- What stands right below a place is a child of what stands there. -/
theorem Program.child_of_nodeAt? {program : Program} {outer : List Nat} {index : Nat}
    {holder inner : Node} (upper : program.nodeAt? outer = some holder)
    (here : program.nodeAt? (outer ++ [index]) = some inner)
    : holder.children[index]? = some inner := by
  rwa [nodeAt?, placed?_concat (placed?_ne_nil upper), ← nodeAt?, upper, Option.bind_some] at here

-----------------------------------------------------------------------------------------
-- Visits
-----------------------------------------------------------------------------------------

/-- The visits to the statements of a program. -/
def Program.visits (program : Program) : List Visit :=
  Visit.ofStatements .program program.body

/-- The visit of the walk to a place of a program. -/
def Program.visitAt? (program : Program) (path : List Nat) : Option Visit :=
  placed? Visit.children program.visits path

namespace Visit

variable {visits : List Visit} {visit : Visit} {path : List Nat} {part : Shown}

@[simp] theorem map_node_ofStatements (enclosing : Enclosing) (body : List Statement)
    : (ofStatements enclosing body).map node = body.map .statement := by
  rw [ofStatements, List.map_map]
  rfl

@[simp] theorem node_plain (inner : Node)
    : (plain inner).node = inner :=
  rfl

/-- A visit to a node is followed by visits to all that the node consists of. -/
theorem map_node_children (visit : Visit)
    : visit.children.map node = visit.node.children := by
  fun_cases children visit
  all_goals simp [Function.comp_def, Node.children, Node.ofExpression, Node.ofStatement]

/-- What is shown of a part of a tree is shown of the tree without interruption. -/
theorem shown_infix_of_placed? (found : placed? children visits path = some visit)
    : visit.shown <:+: visits.flatMap shown := by
  induction path generalizing visits with
  | nil => cases found
  | cons index rest ih =>
      have within {item : Visit} (here : visits[index]? = some item)
          : item.shown <:+: visits.flatMap shown := by
        rw [List.flatMap_def]
        exact List.infix_of_mem_flatten (List.mem_map_of_mem (List.mem_of_getElem? here))
      cases rest with
      | nil => exact within found
      | cons next rest =>
          obtain ⟨above, here, deeper⟩ := Option.bind_eq_some_iff.mp found
          refine ((ih deeper).trans ?_).trans (within here)
          rw [shown_eq]
          exact (List.suffix_append ..).isInfix

/-- What a visit shows, it shows by itself, or one below it does. -/
theorem exists_of_mem_shown (visit : Visit) (member : part ∈ visit.shown)
    : part ∈ visit.own
      ∨ ∃ path inner, placed? children visit.children path = some inner ∧ part ∈ inner.own := by
  rw [shown_eq] at member
  rcases List.mem_append.mp member with here | below
  · exact .inl here
  · obtain ⟨child, direct, inside⟩ := List.mem_flatMap.mp below
    rcases exists_of_mem_shown child inside with own | ⟨path, inner, found, own⟩
    · obtain ⟨index, below, rfl⟩ := List.mem_iff_getElem.mp direct
      exact .inr ⟨[index], _, List.getElem?_eq_getElem below, own⟩
    · obtain ⟨path, found⟩ := exists_placed?_of_child direct found
      exact .inr ⟨path, inner, found, own⟩
termination_by sizeOf visit.node
decreasing_by
  exact Node.sizeOf_children visit.node child.node
    (map_node_children visit ▸ List.mem_map_of_mem direct)

end Visit

namespace Visit

variable {visits : List Visit} {visit other : Visit} {path place : List Nat} {part second : Shown}

theorem mem_shown_of_placed? (found : placed? children visits path = some visit)
    (own : part ∈ visit.own)
    : part ∈ visits.flatMap shown := by
  refine (shown_infix_of_placed? found).subset ?_
  rw [shown_eq]
  exact List.mem_append_left _ own

theorem pair_subperm {parts others : List Shown} (first : part ∈ parts) (last : second ∈ others)
    : [part, second].Subperm (parts ++ others) :=
  ((List.singleton_sublist.mpr first).append (List.singleton_sublist.mpr last)).subperm

/-- What is shown below two nodes is shown once for each of them. -/
theorem pair_subperm_of_lt {index later : Nat} {first last : Visit} (before : index < later)
    (here : visits[index]? = some first) (there : visits[later]? = some last)
    (shows : part ∈ first.shown) (shows' : second ∈ last.shown)
    : [part, second].Subperm (visits.flatMap shown) := by
  obtain ⟨inside, rfl⟩ := List.getElem?_eq_some_iff.mp here
  have front : part ∈ (visits.take (index + 1)).flatMap shown :=
    List.mem_flatMap.mpr ⟨_, List.mem_take_iff_getElem.mpr ⟨index, by omega, rfl⟩, shows⟩
  have back : second ∈ (visits.drop (index + 1)).flatMap shown := by
    have among : (visits.drop (index + 1))[later - (index + 1)]? = some last := by
      rwa [List.getElem?_drop, Nat.add_sub_cancel' before]
    exact List.mem_flatMap.mpr ⟨last, List.mem_of_getElem? among, shows'⟩
  rw [← List.take_append_drop (index + 1) visits, List.flatMap_append]
  exact pair_subperm front back

/-- What is shown at two places is shown of a tree once for each of them. -/
theorem pair_subperm_of_placed? (found : placed? children visits path = some visit)
    (there : placed? children visits place = some other) (differ : path ≠ place)
    (own : part ∈ visit.own) (own' : second ∈ other.own)
    : [part, second].Subperm (visits.flatMap shown) := by
  have shown_of {top item : Visit} {rest : List Nat} {part : Shown} (own : part ∈ item.own)
      (below : rest = [] ∧ top = item ∨ placed? children top.children rest = some item)
      : part ∈ top.shown := by
    rw [shown_eq]
    rcases below with ⟨-, rfl⟩ | below
    · exact List.mem_append_left _ own
    · exact List.mem_append_right _ (mem_shown_of_placed? below own)
  induction path generalizing visits place with
  | nil => cases found
  | cons index rest ih =>
      cases place with
      | nil => cases there
      | cons later rest' =>
          obtain ⟨top, here, below⟩ := placed?_cons_cases found
          obtain ⟨top', here', below'⟩ := placed?_cons_cases there
          rcases Nat.lt_trichotomy index later with before | rfl | behind
          · exact pair_subperm_of_lt before here here' (shown_of own below) (shown_of own' below')
          · obtain rfl := Option.some.inj (here.symm.trans here')
            have single : placed? children visits [index] = some top := here
            refine .trans ?_ (shown_infix_of_placed? single).sublist.subperm
            rw [shown_eq]
            rcases below with ⟨rfl, rfl⟩ | below <;> rcases below' with ⟨rfl, rfl⟩ | below'
            · contradiction
            · exact pair_subperm own (mem_shown_of_placed? below' own')
            · exact (List.Perm.swap ..).subperm.trans
                (pair_subperm own' (mem_shown_of_placed? below own))
            · exact (ih below below' (by simpa using differ)).trans
                (List.sublist_append_right ..).subperm
          · exact (List.Perm.swap ..).subperm.trans
              (pair_subperm_of_lt behind here' here (shown_of own' below') (shown_of own below))

end Visit

-----------------------------------------------------------------------------------------
-- The walk over a program
-----------------------------------------------------------------------------------------

namespace Program

variable {program : Program} {path : List Nat} {visit : Visit} {part : Shown}

theorem flatMap_visits_shown (program : Program)
    : program.visits.flatMap Visit.shown = program.shown :=
  Visit.flatMap_ofStatements_shown ..

/-- The walk comes to each place of a program, and to the node that stands there. -/
theorem map_node_visitAt? (program : Program) (path : List Nat)
    : (program.visitAt? path).map Visit.node = program.nodeAt? path := by
  rw [visitAt?, placed?_map Visit.map_node_children, visits, Visit.map_node_ofStatements, nodeAt?]

theorem nodeAt?_of_visitAt? (found : program.visitAt? path = some visit)
    : program.nodeAt? path = some visit.node := by
  rw [← map_node_visitAt?, found, Option.map_some]

theorem exists_visitAt?_of_nodeAt? {node : Node} (found : program.nodeAt? path = some node)
    : ∃ visit, program.visitAt? path = some visit ∧ visit.node = node :=
  Option.map_eq_some_iff.mp (map_node_visitAt? program path ▸ found)

theorem shown_infix_of_visitAt? (found : program.visitAt? path = some visit)
    : visit.shown <:+: program.shown :=
  flatMap_visits_shown program ▸ Visit.shown_infix_of_placed? found

/-- What is shown of a program is what the walk shows at its places. -/
theorem mem_shown_iff
    : part ∈ program.shown ↔ ∃ path visit, program.visitAt? path = some visit ∧ part ∈ visit.own := by
  constructor
  · intro member
    rw [← flatMap_visits_shown] at member
    obtain ⟨first, among, inside⟩ := List.mem_flatMap.mp member
    rcases Visit.exists_of_mem_shown first inside with own | ⟨path, inner, found, own⟩
    · obtain ⟨index, below, rfl⟩ := List.mem_iff_getElem.mp among
      exact ⟨[index], _, List.getElem?_eq_getElem below, own⟩
    · obtain ⟨path, found⟩ := exists_placed?_of_child among found
      exact ⟨path, inner, found, own⟩
  · rintro ⟨path, visit, found, own⟩
    refine (shown_infix_of_visitAt? found).subset ?_
    rw [Visit.shown_eq]
    exact List.mem_append_left _ own

end Program

-----------------------------------------------------------------------------------------
-- What is handed to a place
-----------------------------------------------------------------------------------------

/-- A visit and one right below it: what the element of a body is told of that body. -/
inductive Visit.Hands : Visit → Visit → Prop
  | element {block : Block} {enclosing : Enclosing} {site : LiteralSite} {statement : Statement}
    : Hands ⟨.block block, enclosing, site⟩
        ⟨.statement statement, .block block.span, .expression⟩
  | clauseElement {visit : Visit} {statement : Statement}
    (clause : ∃ value, visit.node = .switchCase value)
    : Hands visit ⟨.statement statement, .switchCase, .expression⟩
  | classElement {definition : ClassDef} {enclosing : Enclosing} {site : LiteralSite}
    {member : ClassMember}
    : Hands ⟨.class definition, enclosing, site⟩
        ⟨.classMember member, .classBody definition.span, .expression⟩
  | other {visit child : Visit} (enclosing : child.enclosing = .statement)
    (element : child.node.extent?.isSome → visit.node.body? = none)
    : Hands visit child

namespace Visit

/-- Whatever is come to from a node is told what the node determines. -/
theorem hands_of_mem {visit child : Visit} (direct : child ∈ visit.children)
    : visit.Hands child := by
  fun_cases children visit
  all_goals simp only [children] at direct
  case case1 =>
    obtain ⟨statement, -, rfl⟩ := List.mem_map.mp direct
    exact .element
  case case2 =>
    rcases List.mem_append.mp direct with test | element
    · obtain ⟨_, -, rfl⟩ := List.mem_map.mp test
      exact .other rfl (by simp [Node.extent?])
    · obtain ⟨statement, -, rfl⟩ := List.mem_map.mp element
      exact .clauseElement ⟨_, rfl⟩
  case case3 =>
    rcases List.mem_append.mp direct with base | member
    · obtain ⟨_, -, rfl⟩ := List.mem_map.mp base
      exact .other rfl (by simp [Node.extent?])
    · obtain ⟨_, -, rfl⟩ := List.mem_map.mp member
      exact .classElement
  case case4 | case5 =>
    obtain rfl := List.mem_singleton.mp direct
    exact .other rfl (by simp [Node.extent?])
  case case6 node enclosing site unlike _ unlikeClass _ _ =>
    obtain ⟨inner, -, rfl⟩ := List.mem_map.mp direct
    refine .other rfl fun _ => Option.eq_none_iff_forall_ne_some.mpr fun body holds => ?_
    rcases Node.exists_of_body? holds with ⟨⟨_, _⟩, rfl, -⟩ | ⟨⟨_, _, _⟩, rfl, -⟩
    · exact unlike _ _ rfl
    · exact unlikeClass _ _ _ rfl

end Visit

/-- A place is that of a statement of the program, or right below another place. -/
theorem Program.visitAt?_cases {program : Program} {path : List Nat} {visit : Visit}
    (found : program.visitAt? path = some visit)
    : (∃ index statement, path = [index] ∧ visit = ⟨.statement statement, .program, .expression⟩)
      ∨ ∃ outer index above, path = outer ++ [index] ∧ program.visitAt? outer = some above
          ∧ above.Hands visit := by
  cases path using List.reverseRecOn with
  | nil => cases found
  | append_singleton outer index =>
      by_cases deeper : outer = []
      · subst deeper
        have among : visit ∈ program.visits := List.mem_of_getElem? found
        obtain ⟨statement, -, rfl⟩ := List.mem_map.mp among
        exact .inl ⟨index, statement, rfl, rfl⟩
      · rw [visitAt?, placed?_concat deeper] at found
        obtain ⟨above, here, direct⟩ := Option.bind_eq_some_iff.mp found
        exact .inr ⟨outer, index, above, rfl, here,
          Visit.hands_of_mem (List.mem_of_getElem? direct)⟩

end ScriptStyle
