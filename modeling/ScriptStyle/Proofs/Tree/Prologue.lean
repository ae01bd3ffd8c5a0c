import ScriptStyle.Proofs.Tree.Places
import ScriptStyle.Proofs.Tree.Sites

/-!
Directive prologues, at every depth of a tree. Where each function body of a tree is marked, and
nothing else is, a statement has the mark of an element if and only if it is one of the body of the
program or of a function, and that of a directive if and only if that body begins with string
literals alone up to and including the statement.
-/

namespace ScriptStyle

namespace Program

/-- The statements right below a place are the body of the program, or of a function. -/
inductive BodyAt (program : Program) : List Nat → List Statement → Prop
  | program : BodyAt program [] program.body
  | function {path : List Nat} {index : Nat} {owner : Node} {block : Block}
    (above : program.nodeAt? path = some owner) (isFunction : owner.isFunction)
    (here : program.nodeAt? (path ++ [index]) = some (.block block))
    : BodyAt program (path ++ [index]) block.body

/-- A place is that of an element of the body of the program, or of a function. -/
def BodyLevelAt (program : Program) (path : List Nat) : Prop :=
  ∃ outer index body, path = outer ++ [index] ∧ program.BodyAt outer body ∧ index < body.length

/-- A place is that of an element of such a body which begins with string literals alone, up to
and including that element. -/
def DirectiveAt (program : Program) (path : List Nat) : Prop :=
  ∃ outer index body, path = outer ++ [index] ∧ program.BodyAt outer body ∧ index < body.length
    ∧ ∀ statement ∈ body.take (index + 1), statement.isDirectiveShaped

/-- The marks of each statement of a program are those of its place. -/
structure DirectivesMarked (program : Program) : Prop where
  /-- The places of the program are those of all nodes of its tree. -/
  everywhere : ∀ node, program.Contains node ↔ ∃ path, program.nodeAt? path = some node
  /-- Each statement of the tree, wherever it is, is marked as an element of a body, and as a
  directive, just where it is one. -/
  exact
    : ∀ path statement, program.nodeAt? path = some (.statement statement) →
        (statement.placement.isBodyLevel ↔ program.BodyLevelAt path)
        ∧ (statement.placement.isDirective ↔ program.DirectiveAt path)
  /-- A string that is a whole statement is shown with these marks. -/
  strings
    : ∀ span directive bodyLevel,
        Shown.string span (.statement directive bodyLevel) ∈ program.shown
        ↔ ∃ path placement,
            program.nodeAt? path = some (.statement (.expression (.string span) placement))
            ∧ (directive ↔ program.DirectiveAt path) ∧ (bodyLevel ↔ program.BodyLevelAt path)
  /-- So is a template, and is no directive. -/
  templates
    : ∀ literal directive bodyLevel,
        Shown.template literal (.statement directive bodyLevel) ∈ program.shown
        ↔ ∃ path span placement,
            program.nodeAt? path
              = some (.statement (.expression (.template literal span) placement))
            ∧ directive = false ∧ (bodyLevel ↔ program.BodyLevelAt path)
  /-- A statement in a block that is no body of a function has no mark. -/
  unmarked_in_block
    : ∀ path owner index position statement, program.nodeAt? path = some owner →
        owner.isFunction = false →
        program.nodeAt? (path ++ [index] ++ [position]) = some (.statement statement) →
        statement.IsUnmarked
  /-- A statement that is a part of anything but a block has no mark. -/
  unmarked_elsewhere
    : ∀ path owner index statement, program.nodeAt? path = some owner → owner.isBlock = false →
        program.nodeAt? (path ++ [index]) = some (.statement statement) →
        statement.IsUnmarked

variable {program : Program} {path outer : List Nat} {index : Nat} {body : List Statement}

-----------------------------------------------------------------------------------------
-- Bodies at places
-----------------------------------------------------------------------------------------

namespace BodyAt

/-- There is one body at a place. -/
theorem unique {other : List Statement} (first : program.BodyAt path body)
    (second : program.BodyAt path other)
    : body = other := by
  cases first with
  | program =>
      generalize same : [] = path at second
      cases second with
      | program => rfl
      | function => simp at same
  | function above isFunction here =>
      generalize same : _ ++ [_] = path at second
      cases second with
      | program => simp at same
      | function _ _ there =>
          rw [same] at here
          obtain rfl := Node.block.inj (Option.some.inj (here.symm.trans there))
          rfl

/-- What stands above the elements of a body is a block, but for those of the program. -/
theorem isBlock {node : Node} (bodyAt : program.BodyAt path body)
    (found : program.nodeAt? path = some node)
    : node.isBlock := by
  cases bodyAt with
  | program => cases found
  | function _ _ here =>
      obtain rfl := Option.some.inj (here.symm.trans found)
      rfl

/-- The body of a function stands below that function. -/
theorem isFunction {owner : Node} (bodyAt : program.BodyAt (path ++ [index]) body)
    (upper : program.nodeAt? path = some owner)
    : owner.isFunction := by
  generalize same : path ++ [index] = place at bodyAt
  cases bodyAt with
  | program => simp at same
  | function above isFunction =>
      obtain rfl := List.append_inj_left' same rfl
      obtain rfl := Option.some.inj (upper.symm.trans above)
      exact isFunction

end BodyAt

/-- Each place but that of a statement of the program is right below another. -/
theorem exists_holder {node : Node} (found : program.nodeAt? (outer ++ [index]) = some node)
    (deeper : outer ≠ [])
    : ∃ holder, program.nodeAt? outer = some holder ∧ holder.children[index]? = some node := by
  rw [nodeAt?, placed?_concat deeper] at found
  exact Option.bind_eq_some_iff.mp found

theorem getElem?_body_of_nodeAt? {statement : Statement}
    (found : program.nodeAt? [index] = some (.statement statement))
    : program.body[index]? = some statement := by
  obtain ⟨element, here, same⟩ :=
    Option.map_eq_some_iff.mp ((List.getElem?_map ..).symm.trans found)
  cases same
  exact here

/-- What stands right below the place of a body is an element of the body. -/
theorem BodyAt.getElem?_of_nodeAt? {statement : Statement} (bodyAt : program.BodyAt outer body)
    (found : program.nodeAt? (outer ++ [index]) = some (.statement statement))
    : body[index]? = some statement := by
  cases bodyAt with
  | program => exact getElem?_body_of_nodeAt? found
  | function _ _ upper =>
      have direct := child_of_nodeAt? upper found
      rw [Node.children_block, List.getElem?_map] at direct
      obtain ⟨element, here, same⟩ := Option.map_eq_some_iff.mp direct
      cases same
      exact here

theorem bodyLevelAt_concat_iff
    : program.BodyLevelAt (outer ++ [index])
      ↔ ∃ body, program.BodyAt outer body ∧ index < body.length := by
  constructor
  · rintro ⟨other, position, body, same, bodyAt, inside⟩
    obtain ⟨rfl, ⟨⟩⟩ := List.append_inj' same rfl
    exact ⟨body, bodyAt, inside⟩
  · rintro ⟨body, bodyAt, inside⟩
    exact ⟨outer, index, body, rfl, bodyAt, inside⟩

theorem DirectiveAt.bodyLevelAt (directive : program.DirectiveAt path)
    : program.BodyLevelAt path := by
  obtain ⟨outer, index, body, same, bodyAt, inside, -⟩ := directive
  exact ⟨outer, index, body, same, bodyAt, inside⟩

/-- An element of a body is a directive if it and those before it are string literals alone. -/
theorem directiveAt_concat_iff (bodyAt : program.BodyAt outer body) (inside : index < body.length)
    : program.DirectiveAt (outer ++ [index])
      ↔ ∀ statement ∈ body.take (index + 1), statement.isDirectiveShaped := by
  refine ⟨?_, fun shaped => ⟨outer, index, body, rfl, bodyAt, inside, shaped⟩⟩
  rintro ⟨other, position, others, same, otherAt, -, shaped⟩
  obtain ⟨rfl, ⟨⟩⟩ := List.append_inj' same rfl
  rwa [bodyAt.unique otherAt]

/-- A statement that is no string literal alone is no directive. -/
theorem not_directiveAt {statement : Statement}
    (found : program.nodeAt? path = some (.statement statement))
    (unlike : statement.isDirectiveShaped = false)
    : ¬program.DirectiveAt path := by
  rintro ⟨outer, index, body, rfl, bodyAt, inside, shaped⟩
  have among : statement ∈ body.take (index + 1) := by
    rw [List.take_add_one, bodyAt.getElem?_of_nodeAt? found]
    simp
  simp [shaped statement among] at unlike

-----------------------------------------------------------------------------------------
-- Marks at places
-----------------------------------------------------------------------------------------

namespace Marked

variable {statement : Statement}

/-- What stands at a place has the marks that its node wants. -/
theorem marks_of_nodeAt? (marked : program.Marked) {node : Node}
    (found : program.nodeAt? path = some node)
    : node.Marks :=
  marked.nodes node (contains_iff.mpr ⟨path, found⟩)

/-- A block at a place is the body of a function, and marked, or it is neither. -/
theorem block_cases (marked : program.Marked) {block : Block}
    (found : program.nodeAt? path = some (.block block))
    : IsMarkedBody block.body ∧ program.BodyAt path block.body
      ∨ (Node.block block).IsUnmarked ∧ ∀ body, ¬program.BodyAt path body := by
  cases path using List.reverseRecOn with
  | nil => cases found
  | append_singleton outer index =>
      have deeper : outer ≠ [] := by
        rintro rfl
        obtain ⟨_, -, same⟩ :=
          Option.map_eq_some_iff.mp ((List.getElem?_map ..).symm.trans found)
        cases same
      obtain ⟨owner, upper, direct⟩ := exists_holder found deeper
      have marks := (marked.marks_of_nodeAt? upper).blocks block (List.mem_of_getElem? direct)
      split at marks
      case isTrue isFunction => exact .inl ⟨marks, .function upper isFunction found⟩
      case isFalse unlike => exact .inr ⟨marks, fun body bodyAt => unlike (bodyAt.isFunction upper)⟩

/-- A statement at a place is an element of a body that is marked, or it is an element of no body
and has no mark. -/
theorem element_cases (marked : program.Marked)
    (found : program.nodeAt? path = some (.statement statement))
    : (∃ outer index body, path = outer ++ [index] ∧ program.BodyAt outer body
        ∧ IsMarkedBody body ∧ body[index]? = some statement)
      ∨ statement.IsUnmarked ∧ ¬program.BodyLevelAt path := by
  cases path using List.reverseRecOn with
  | nil => cases found
  | append_singleton outer index =>
      by_cases deeper : outer = []
      · subst deeper
        exact .inl ⟨[], index, program.body, rfl, .program, marked.body,
          getElem?_body_of_nodeAt? found⟩
      obtain ⟨holder, upper, direct⟩ := exists_holder found deeper
      have unlevelled (none : ∀ body, ¬program.BodyAt outer body)
          : ¬program.BodyLevelAt (outer ++ [index]) := by
        rw [bodyLevelAt_concat_iff]
        rintro ⟨body, bodyAt, -⟩
        exact none body bodyAt
      cases isBlock : holder.isBlock with
      | false =>
          have unmarked := (marked.marks_of_nodeAt? upper).statements isBlock statement
            (List.mem_of_getElem? direct)
          refine .inr ⟨unmarked, unlevelled fun body bodyAt => ?_⟩
          simp [bodyAt.isBlock upper] at isBlock
      | true =>
          obtain ⟨block, rfl⟩ := Node.exists_of_isBlock isBlock
          rw [Node.children_block, List.getElem?_map] at direct
          obtain ⟨element, here, same⟩ := Option.map_eq_some_iff.mp direct
          cases same
          rcases marked.block_cases upper with ⟨markedBody, bodyAt⟩ | ⟨unmarked, none⟩
          · exact .inl ⟨outer, index, block.body, rfl, bodyAt, markedBody, here⟩
          · exact .inr ⟨unmarked statement (List.mem_of_getElem? here), unlevelled none⟩

/-- A statement has the marks of its place. -/
theorem exact (marked : program.Marked)
    (found : program.nodeAt? path = some (.statement statement))
    : (statement.placement.isBodyLevel ↔ program.BodyLevelAt path)
      ∧ (statement.placement.isDirective ↔ program.DirectiveAt path) := by
  rcases marked.element_cases found with ⟨outer, index, body, rfl, bodyAt, markedBody, here⟩
    | ⟨⟨noElement, noDirective⟩, unlevelled⟩
  · obtain ⟨inside, -⟩ := List.getElem?_eq_some_iff.mp here
    obtain ⟨element, directive⟩ := markedBody index statement here
    exact ⟨iff_of_true element (bodyLevelAt_concat_iff.mpr ⟨body, bodyAt, inside⟩),
      directive.trans (directiveAt_concat_iff bodyAt inside).symm⟩
  · exact ⟨iff_of_false (by simp [noElement]) unlevelled,
      iff_of_false (by simp [noDirective]) fun directive => unlevelled directive.bodyLevelAt⟩

/-- The flags of a literal that is a whole statement are those of the place of that statement. -/
theorem exists_placement_iff (marked : program.Marked) {value : Expression}
    {directive bodyLevel : Bool}
    : (∃ placement, placement.isDirective = directive ∧ placement.isBodyLevel = bodyLevel
        ∧ program.Contains (.statement (.expression value placement)))
      ↔ ∃ path placement, program.nodeAt? path = some (.statement (.expression value placement))
          ∧ (directive ↔ program.DirectiveAt path) ∧ (bodyLevel ↔ program.BodyLevelAt path) := by
  constructor
  · rintro ⟨placement, rfl, rfl, contains⟩
    obtain ⟨path, found⟩ := contains_iff.mp contains
    obtain ⟨element, directive⟩ := marked.exact found
    exact ⟨path, placement, found, directive, element⟩
  · rintro ⟨path, placement, found, directive, element⟩
    obtain ⟨element', directive'⟩ := marked.exact found
    exact ⟨placement, Bool.eq_iff_iff.mpr (directive'.trans directive.symm),
      Bool.eq_iff_iff.mpr (element'.trans element.symm), contains_iff.mpr ⟨path, found⟩⟩

/-- Where function bodies are marked and nothing else is, each statement has the marks of its
place. -/
theorem directivesMarked (marked : program.Marked)
    : program.DirectivesMarked where
  everywhere _ := contains_iff
  exact _ _ found := marked.exact found
  strings _ _ _ := shown_stringStatement_iff.trans marked.exists_placement_iff
  templates literal directive bodyLevel := by
    simp only [shown_templateStatement_iff, marked.exists_placement_iff]
    rw [exists_comm]
    refine exists_congr fun path => exists_congr fun span => exists_congr fun placement =>
      and_congr_right fun found => and_congr_left fun _ => ?_
    simp [not_directiveAt found rfl]
  unmarked_in_block path owner index position statement upper unlike found := by
    rcases marked.element_cases found with ⟨outer, _, body, same, bodyAt, -⟩ | ⟨unmarked, -⟩
    · obtain rfl := List.append_inj_left' same rfl
      simp [bodyAt.isFunction upper] at unlike
    · exact unmarked
  unmarked_elsewhere path owner index statement upper unlike found := by
    rcases marked.element_cases found with ⟨outer, _, body, same, bodyAt, -⟩ | ⟨unmarked, -⟩
    · obtain rfl := List.append_inj_left' same rfl
      simp [bodyAt.isBlock upper] at unlike
    · exact unmarked

end Marked

end Program

end ScriptStyle
