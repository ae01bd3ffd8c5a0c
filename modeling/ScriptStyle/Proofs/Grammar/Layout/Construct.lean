import ScriptStyle.Proofs.Grammar.Layout.Basic

/-!
How nodes of all kinds are laid out around what they consist of. Statements and class members
have the tokens between the cursors where they begin and end, and so the bodies of blocks and
classes have all tokens between their braces.
-/

namespace ScriptStyle.Grammar

open ScriptStyle.Grammar.Parser

variable {α : Type} {origin : Scanner} {c m c' : Cursor} {node : Node} {nodes : List Node}
  {extent : Extent} {extents : List Extent} {tokens : List Token} {parts : List Shown}

-----------------------------------------------------------------------------------------
-- Nodes around others
-----------------------------------------------------------------------------------------

/-- A node lies between the cursors between which it consists of something. -/
theorem Laid.fits_around (laid : Laid origin c node.children c')
    (spans : ∀ span, node.span? = some span → span = ⟨c.offset, c'.lastStop⟩)
    (held : ∀ span ∈ node.heldSpans, (⟨c.offset, c'.lastStop⟩ : Span).encloses span)
    (complete : c'.Completes origin tokens)
    (extent
      : ∀ extent, node.extent? = some extent → extent.Exact tokens ∧ extent.Opens tokens)
    (body
      : ∀ body, node.body? = some body → ∃ opening closing, body.BracedAt tokens opening closing)
    : node.Fits tokens ⟨c.offset, c'.lastStop⟩ := by
  have same : node.span?.getD ⟨c.offset, c'.lastStop⟩ = ⟨c.offset, c'.lastStop⟩ := by
    cases found : node.span? with
    | none => rfl
    | some span => exact spans span found
  refine ⟨fun span found => ?_, by rwa [same], extent, body, ?_⟩
  · rw [spans span found]
    exact Span.encloses_refl _
  · rw [same]
    exact laid.fits tokens complete

/-- A node other than an arrow function with a block is laid out with what it consists of. -/
theorem Laid.around (laid : Laid origin c node.children c')
    (other
      : ∀ params block isAsync span,
        node ≠ .expression (.arrowBlock params block isAsync span))
    (spans : ∀ span, node.span? = some span → span = ⟨c.offset, c'.lastStop⟩)
    (held : ∀ span ∈ node.heldSpans, (⟨c.offset, c'.lastStop⟩ : Span).encloses span)
    (extent
      : ∀ tokens, c'.Completes origin tokens → ∀ extent, node.extent? = some extent
        → extent.Exact tokens ∧ extent.Opens tokens)
    (body
      : ∀ tokens, c'.Completes origin tokens → ∀ body, node.body? = some body
        → ∃ opening closing, body.BracedAt tokens opening closing)
    : Laid origin c [node] c' where
  toMoves := laid.toMoves
  balanced := laid.balanced
  arrows := by
    intro tokens complete index
    have inner : node.ClosesArrow tokens index
        ↔ ∃ child ∈ node.children, child.ClosesArrow tokens index := by
      rw [Node.closesArrow_iff]
      refine ⟨fun closes => closes.resolve_left ?_, .inr⟩
      rintro ⟨params, block, isAsync, span, -, same, -⟩
      exact other params block isAsync span same
    rw [laid.arrows tokens complete, ← inner]
    simp
  fits := by
    intro tokens complete found member
    obtain rfl := List.mem_singleton.mp member
    exact laid.fits_around spans held complete (extent tokens complete) (body tokens complete)

/-- What is no more than what it consists of is laid out with that. -/
theorem Laid.group (laid : Laid origin c node.children c') (group : node.isGroup)
    : Laid origin c [node] c' := by
  have own : node.span? = none ∧ node.heldSpans = [] ∧ node.extent? = none ∧ node.body? = none
      ∧ ∀ value, node ≠ .expression value := by
    fun_cases Node.isGroup node <;> simp_all [Node.isGroup, Node.span?, Node.heldSpans, Node.extent?,
      Node.body?]
  obtain ⟨span, held, extent, body, other⟩ := own
  exact laid.around (fun _ _ _ _ => other _) (by simp [span]) (by simp [held]) (by simp [extent])
    (by simp [body])

/-- An expression is laid out with what it consists of. -/
theorem Laid.expression {e : Expression} (laid : Laid origin c (Node.ofExpression e) c')
    (read : ExpressionRead origin c e c') (simple : Node.isSimple e)
    : Laid origin c [.expression e] c' := by
  have inner : Laid origin c (Node.expression e).children c' := laid
  refine inner.around ?_ ?_ ?_ (by simp [Node.extent?]) (by simp [Node.body?])
  · rintro params block isAsync span ⟨⟩
    cases simple
  · rintro span ⟨⟩
    exact read.span
  · have none : (Node.expression e).heldSpans = [] := by
      cases e <;> first | rfl | cases simple
    simp [none]

/-- A token that is a node of its own is laid out. -/
theorem Cursor.Sound.leaf_laid {token : Token} (sound : c.Sound origin) (here : c.peek? = some token)
    (kind : token.kind ≠ .punctuator) (childless : node.children = [])
    (span : node.span? = some token.span) (held : node.heldSpans = [])
    (extent : node.extent? = none) (body : node.body? = none)
    : Laid origin c [node] c.advance := by
  have inner : Laid origin c node.children c.advance := by
    rw [childless]
    exact sound.advance_laid (Cursor.unbraced_of_kind here kind)
  refine inner.around ?_ ?_ (by simp [held]) (by simp [extent]) (by simp [body])
  · rintro params block isAsync span rfl
    simp [Node.children, Node.ofExpression] at childless
  · intro found same
    rw [Cursor.Sound.offset_eq here, Cursor.advance_lastStop here]
    exact Option.some.inj (same.symm.trans span)

/-- A node that consists of nothing need not be kept. -/
theorem Laid.forget (laid : Laid origin c [node] c') (childless : node.children = [])
    : Laid origin c [] c' where
  toMoves := laid.toMoves
  balanced := laid.balanced
  arrows := by
    intro tokens complete index
    have none : ¬node.ClosesArrow tokens index := by
      rw [Node.closesArrow_iff, childless]
      rintro (⟨params, block, isAsync, span, opening, rfl, -⟩ | ⟨child, ⟨⟩, -⟩)
      simp [Node.children, Node.ofExpression] at childless
    simp [laid.arrows tokens complete, none]
  fits := by simp

-----------------------------------------------------------------------------------------
-- Statements and class members
-----------------------------------------------------------------------------------------

/-- An extent agrees with the tokens, and no others between two cursors are significant. -/
def Extent.Fills (origin : Scanner) (extent : Extent) (c c' : Cursor) : Prop :=
  ∀ tokens, c'.Completes origin tokens → extent.Exact tokens
    ∧ extent.tokens.significant tokens = significantIndices tokens c.index c'.index

/-- Tokens that are taken fill the extent from the first of them to the last. -/
theorem Ledger.fills (ledger : Ledger origin c parts c') (sound : c.Sound origin)
    (rises : c.offset < c'.lastStop)
    : Extent.Fills origin ⟨⟨c.offset, c'.lastStop⟩, ⟨c.index, c'.lastIndex⟩⟩ c c' := by
  intro tokens complete
  obtain ⟨above, below, before, last, after, split, index, significant, stop, comments⟩ :=
    sound.last_of_rises ledger rises
  have size : c'.index = c'.behind.toList.length := by simp [Cursor.index]
  have here : tokens[c'.lastIndex]? = some last := by
    rw [complete.getElem? below, split, ← index]
    simp
  refine ⟨⟨above, ledger.moves.first_token sound complete (by omega), last, here, significant, stop⟩,
    ?_⟩
  have behind : significantIndices tokens (c'.lastIndex + 1) c'.index = [] := by
    refine significantIndices_eq_nil fun place later inside found => ?_
    obtain ⟨more, rfl⟩ : ∃ more, place = before.length + (more + 1) :=
      ⟨place - before.length - 1, by omega⟩
    obtain ⟨token, there, significant⟩ := Option.any_eq_true .. |>.mp found
    rw [complete.getElem? inside, split, List.getElem?_append_right (by omega),
      Nat.add_sub_cancel_left, List.getElem?_cons_succ] at there
    rw [comments token (List.mem_of_getElem? there)] at significant
    cases significant
  simp only [TokenRange.significant]
  rw [← significantIndices_append (Nat.le_succ_of_le above) below, behind, List.append_nil]

/-- What is laid out over some tokens does not begin with a brace that closes another. -/
theorem Laid.opens (laid : Laid origin c nodes c') (complete : c'.Completes origin tokens)
    (taken : c.index < c'.index) (extent : Extent) (begins : extent.tokens.first = c.index)
    : extent.Opens tokens := by
  intro token first
  obtain ⟨between, behind, balanced⟩ := laid.balanced
  obtain ⟨more, whole⟩ := complete.grows
  have size : c.index = c.behind.toList.length := by simp [Cursor.index]
  cases between with
  | nil => simp [Cursor.index, ← Array.length_toList, behind] at taken
  | cons head tail =>
      rw [begins, ← whole, behind, size, List.append_assoc,
        List.getElem?_append_right (Nat.le_refl _), Nat.sub_self] at first
      exact balanced.not_closes_of_head? first

/-- A statement or class member is laid out, with an extent that its tokens fill. -/
structure ElementLaid (origin : Scanner) (c : Cursor) (node : Node) (extent : Extent) (c' : Cursor)
    : Prop extends Laid origin c [node] c' where
  fills : Extent.Fills origin extent c c'
  span : node.span? = some extent.span

/-- A node with an extent is laid out with what it consists of. -/
theorem Laid.element (laid : Laid origin c node.children c') (ledger : Ledger origin c parts c')
    (sound : c.Sound origin) (rises : c.offset < c'.lastStop)
    (from_to : extent = ⟨⟨c.offset, c'.lastStop⟩, ⟨c.index, c'.lastIndex⟩⟩)
    (own : node.extent? = some extent) (span : node.span? = some extent.span)
    (held : node.heldSpans = []) (body : node.body? = none)
    : ElementLaid origin c node extent c' := by
  have fills : Extent.Fills origin extent c c' := from_to ▸ ledger.fills sound rises
  obtain ⟨above, below, -⟩ := sound.last_of_rises ledger rises
  refine ⟨laid.around ?_ ?_ (by simp [held]) ?_ (by simp [body]), fills, span⟩
  · rintro params block isAsync span rfl
    cases own
  · intro found same
    obtain rfl := Option.some.inj (span.symm.trans same)
    rw [from_to]
  · intro tokens complete found same
    obtain rfl := Option.some.inj (own.symm.trans same)
    exact ⟨(fills tokens complete).1, laid.opens complete (above.trans_lt below) extent (by rw [from_to])⟩

-----------------------------------------------------------------------------------------
-- Bodies
-----------------------------------------------------------------------------------------

/-- Statements or class members are laid out one after another and share out the tokens. -/
structure Elements (origin : Scanner) (c : Cursor) (nodes : List Node) (extents : List Extent)
    (c' : Cursor) : Prop extends Laid origin c nodes c' where
  partitions
    : ∀ tokens, c'.Completes origin tokens →
        Partitions tokens (extents.map Extent.tokens) c.index c'.index
  spans : ∀ extent ∈ extents, ∃ node ∈ nodes, node.span? = some extent.span

namespace Elements

theorem nil (sound : c.Sound origin)
    : Elements origin c [] [] c where
  toLaid := .refl sound
  partitions _ _ := .nil (by simp [significantIndices])
  spans := by simp

theorem cons (first : ElementLaid origin c node extent m) (rest : Elements origin m nodes extents c')
    : Elements origin c (node :: nodes) (extent :: extents) c' where
  toLaid := first.toLaid.trans rest.toLaid
  partitions := by
    intro tokens complete
    obtain ⟨exact, whole⟩ := first.fills tokens (complete.of_moves rest.toMoves)
    exact .cons whole exact.significant_ne_nil first.index_le rest.index_le
      (rest.partitions tokens complete)
  spans := by
    intro extent member
    rcases List.mem_cons.mp member with rfl | later
    · exact ⟨node, List.mem_cons_self .., first.span⟩
    · obtain ⟨found, among, span⟩ := rest.spans extent later
      exact ⟨found, List.mem_cons_of_mem _ among, span⟩

/-- Elements between two braces are the body between these. -/
theorem bracedAt (elements : Elements origin c.advance nodes extents m) (sound : c.Sound origin)
    (opens : c.sees "\x7b") (closes : m.sees "\x7d") (complete : m.advance.Completes origin tokens)
    : Body.BracedAt tokens ⟨⟨c.offset, m.advance.lastStop⟩, extents⟩ c.index m.index := by
  obtain ⟨opening, here, -⟩ := Cursor.sees_eq_true.mp opens
  obtain ⟨closing, there, -⟩ := Cursor.sees_eq_true.mp closes
  have isOpening := sound.isPunctuator_of_sees here opens rfl (by decide)
  have isClosing := elements.sound.isPunctuator_of_sees there closes rfl (by decide)
  have first := Moves.advance sound
  have last := Moves.advance elements.sound
  have complete' := complete.of_moves last
  obtain ⟨comments, behind, isComment⟩ := Cursor.Sound.advance_behind here
  obtain ⟨comments', behind', -⟩ := Cursor.Sound.advance_behind there
  obtain ⟨taken, between, balanced⟩ := elements.balanced
  have size : c.index = c.behind.toList.length := by simp [Cursor.index]
  have size' : c.advance.index = c.index + 1 + comments.length := by
    have length := congrArg List.length behind
    simp only [List.length_append, List.length_cons, Array.length_toList] at length
    simp only [Cursor.index]
    omega
  have size'' : m.index = c.index + 1 + (comments ++ taken).length := by
    have length := congrArg List.length between
    simp only [behind, List.length_append, List.length_cons, Array.length_toList] at length
    simp only [Cursor.index, List.length_append]
    omega
  obtain ⟨more, whole⟩ := complete.grows
  have whole : tokens
      = c.behind.toList ++ opening :: (comments ++ taken) ++ closing :: (comments' ++ more) := by
    simp [← whole, behind', between, behind]
  constructor
  case opens =>
    refine ⟨opening, ?_, isOpening, (Cursor.Sound.offset_eq here).symm⟩
    rw [whole, size]
    simp
  case closes =>
    refine ⟨closing, ?_, isClosing, (Cursor.advance_lastStop there).symm⟩
    have place : m.index = (c.behind.toList ++ opening :: (comments ++ taken)).length := by
      simp only [size'', size, List.length_append, List.length_cons]
      omega
    rw [whole, place, List.getElem?_append_right (Nat.le_refl _), Nat.sub_self]
    rfl
  case matching =>
    rw [whole, size'', size]
    exact ((Cursor.Sound.balanced_of_isComment isComment).append balanced).matchingBrace?_eq isClosing
  case partitions =>
    refine (elements.partitions tokens complete').widen (by omega) elements.index_le (Nat.le_refl _)
      (significantIndices_eq_nil fun index above below found => ?_) (by simp [significantIndices])
    obtain ⟨more, rfl⟩ : ∃ more, index = c.index + 1 + more := ⟨index - c.index - 1, by omega⟩
    obtain ⟨comment, place, significant⟩ := Option.any_eq_true .. |>.mp found
    rw [(complete'.of_moves elements.toMoves).getElem? below, behind, size,
      List.getElem?_append_right (by omega), Nat.add_assoc, Nat.add_sub_cancel_left, Nat.add_comm 1,
      List.getElem?_cons_succ] at place
    simp [Token.isSignificant, isComment comment (List.mem_of_getElem? place)] at significant
  case encloses =>
    intro extent member
    obtain ⟨node, among, span⟩ := elements.spans extent member
    exact Span.encloses_trans (first.encloses last)
      ((elements.fits tokens complete' node among).own span)

end Elements

/-- Marks leave the statements of a body where they are. -/
theorem Laid.markBody {body : List Statement} (laid : Laid origin c (body.map .statement) c')
    : Laid origin c ((markBody body).map .statement) c' where
  toMoves := laid.toMoves
  balanced := laid.balanced
  arrows tokens complete index := by
    rw [laid.arrows tokens complete index, Node.closesArrow_markBody]
  fits tokens complete := Node.fits_markBody (laid.fits tokens complete)

theorem Laid.asBody {block : Block} (laid : Laid origin c [.block block] c')
    : Laid origin c [.block block.asBody] c' where
  toMoves := laid.toMoves
  balanced := laid.balanced
  arrows tokens complete index := by
    rw [laid.arrows tokens complete index]
    simp only [List.mem_singleton, exists_eq_left, Node.closesArrow_asBody]
  fits tokens complete := by
    have fits := List.forall_mem_singleton.mp (laid.fits tokens complete)
    exact List.forall_mem_singleton.mpr fits.asBody

theorem Elements.markBody {body : List Statement}
    (elements : Elements origin c (body.map .statement) (body.map Statement.extent) c')
    : Elements origin c ((markBody body).map .statement) ((markBody body).map Statement.extent)
        c' where
  toLaid := elements.toLaid.markBody
  partitions tokens complete := by
    rw [map_extent_markBody]
    exact elements.partitions tokens complete
  spans extent member := by
    rw [map_extent_markBody] at member
    obtain ⟨node, among, span⟩ := elements.spans extent member
    obtain ⟨value, element, rfl⟩ := List.mem_map.mp among
    obtain ⟨isDirective, among⟩ := exists_mem_markBody element
    refine ⟨_, List.mem_map_of_mem among, ?_⟩
    rwa [Node.span?, Statement.extent_markedAs]

/-- Elements that are laid out round by round are laid out together. -/
theorem Parser.Rounds.elements {round : Parser (Round α)} {items : List α} {node : α → Node}
    {extent : α → Extent} (repeated : Rounds round c items c')
    (each : ∀ {c c' : Cursor} {found : Round α}, c.Sound origin → round c = .ok (found, c')
      → (found = .stop ∧ c = c')
        ∨ ∃ item, found = .more item ∧ ElementLaid origin c (node item) (extent item) c')
    (sound : c.Sound origin)
    : Elements origin c (items.map node) (items.map extent) c' := by
  induction repeated with
  | stop run =>
      obtain ⟨-, rfl⟩ | ⟨_, equal, -⟩ := each sound run
      · exact .nil sound
      · cases equal
  | last run => obtain ⟨equal, -⟩ | ⟨_, equal, -⟩ := each sound run <;> cases equal
  | more run rest ih =>
      obtain ⟨equal, -⟩ | ⟨item, equal, first⟩ := each sound run
      · cases equal
      · obtain rfl := Round.more.inj equal
        exact .cons first (ih first.sound)

/-- Elements up to a closing brace are laid out with both braces, as the body between these. -/
theorem Parser.bracedElements_laid {item : Parser α} {items : List α} {node : α → Node}
    {extent : α → Extent} {one : α → List Shown} (covers : ItemCovers origin item one)
    (rises : ∀ {c c' : Cursor} {found : α}, c.Sound origin → item c = .ok (found, c')
      → c.offset < c'.lastStop)
    (each : ∀ {c c' : Cursor} {found : α}, c.Sound origin → item c = .ok (found, c')
      → ElementLaid origin c (node found) (extent found) c')
    (sound : c.Sound origin) (opens : c.sees "\x7b")
    (run : itemsUntil "\x7d" item c.advance = .ok (items, c'))
    : Laid origin c (items.map node) c' ∧ c.offset < c'.lastStop
        ∧ ∀ tokens, c'.Completes origin tokens →
            Body.BracedAt tokens ⟨⟨c.offset, c'.lastStop⟩, items.map extent⟩ c.index c'.lastIndex := by
  have moved := (Moves.advance sound).sound
  obtain ⟨m, rounds, closes, rfl⟩ := itemsUntil_rounds covers rises moved run
  have elements : Elements origin c.advance (items.map node) (items.map extent) m := by
    refine rounds.elements (fun sound run => ?_) moved
    obtain ⟨-, ⟨rfl, same, -⟩ | ⟨-, run⟩⟩ := unlessClosed_ok.mp run
    · exact .inl ⟨rfl, same⟩
    · obtain ⟨item, read, rfl⟩ := map_ok.mp run
      exact .inr ⟨item, rfl, each sound read⟩
  obtain ⟨opening, here, -⟩ := Cursor.sees_eq_true.mp opens
  obtain ⟨closing, there, -⟩ := Cursor.sees_eq_true.mp closes
  refine ⟨elements.toLaid.braced sound opens closes, ?_, fun tokens complete => ?_⟩
  · have taken := (sound.offset_lt_advance here).1
    have inner := elements.lastStop_le
    have last := (Moves.advance elements.sound).lastStop_le
    omega
  · rw [Cursor.advance_lastIndex there]
    exact elements.bracedAt sound opens closes complete

/-- What is known of the constructs of a level. -/
structure Level.Lays (origin : Scanner) (level : Level) : Prop extends Level.Covers origin level where
  statement_laid
    : ∀ {inGenerator c s c'}, c.Sound origin → level.statement inGenerator c = .ok (s, c')
      → ElementLaid origin c (.statement s) s.extent c'
  assignment_laid
    : ∀ {inGenerator allowIn c e c'}, c.Sound origin
      → level.assignment inGenerator allowIn c = .ok (e, c') → Laid origin c [.expression e] c'
  unary_laid
    : ∀ {inGenerator c e c'}, c.Sound origin → level.unary inGenerator c = .ok (e, c')
      → Laid origin c [.expression e] c'
  heritage_laid
    : ∀ {inGenerator c e c'}, c.Sound origin → level.heritage inGenerator c = .ok (e, c')
      → Laid origin c [.expression e] c'
  construct_laid
    : ∀ {inGenerator c e c'}, c.Sound origin → c.sees "new"
      → level.construct inGenerator c = .ok (e, c') → Laid origin c [.expression e] c'

end ScriptStyle.Grammar
