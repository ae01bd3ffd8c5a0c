import ScriptStyle.Proofs.Tree.Layout

/-!
What follows the elements of a body. Behind the last of them comes the closing brace of the body,
and behind any other the first token of the next, which is no closing brace.
-/

namespace ScriptStyle

variable {tokens : List Token} {first stop index : Nat}

-----------------------------------------------------------------------------------------
-- The next significant token
-----------------------------------------------------------------------------------------

theorem Token.isSignificant_of_isPunctuator {token : Token} {text : String}
    (spelled : token.isPunctuator text)
    : token.isSignificant := by
  simp only [Token.isPunctuator, Bool.and_eq_true, beq_iff_eq] at spelled
  rw [Token.isSignificant, spelled.1]
  rfl

/-- The next significant token is the one behind which there are none but comments. -/
theorem nextSignificant?_eq_some {place : Nat} {token : Token} (behind : index < place)
    (here : tokens[place]? = some token) (significant : token.isSignificant)
    (comments : ∀ between, index < between → between < place →
      ¬tokens[between]?.any Token.isSignificant)
    : nextSignificant? tokens index = some token := by
  obtain ⟨inside, rfl⟩ := List.getElem?_eq_some_iff.mp here
  rw [nextSignificant?, List.find?_eq_some_iff_getElem]
  refine ⟨significant, place - (index + 1), by simp; omega, ?_, fun earlier before => ?_⟩
  · simp only [List.getElem_drop]
    congr 1
    omega
  · have comment := comments (index + 1 + earlier) (by omega) (by omega)
    rw [List.getElem?_eq_getElem (by omega)] at comment
    simpa [List.getElem_drop] using comment

/-- The next token that rules look up is the next significant one. -/
theorem Neighbour.map_next? (tokens : Array Token) (index : Nat)
    : (Neighbour.next? tokens index).map Prod.fst = nextSignificant? tokens.toList index := by
  have dropped : (tokens.toList.zipIdx.drop (index + 1)).map Prod.fst
      = tokens.toList.drop (index + 1) := by
    rw [List.map_drop, List.zipIdx_map_fst]
  rw [Neighbour.next?, nextSignificant?, ← dropped, List.find?_map]
  rfl

-----------------------------------------------------------------------------------------
-- Constructs one after another
-----------------------------------------------------------------------------------------

theorem pairwise_significantIndices (tokens : List Token) (first stop : Nat)
    : (significantIndices tokens first stop).Pairwise (· < ·) :=
  (List.pairwise_lt_range' ..).filter _

namespace Extent.Exact

variable {extent : Extent}

theorem first_mem (exact : extent.Exact tokens)
    : extent.tokens.first ∈ extent.tokens.significant tokens := by
  obtain ⟨token, here, significant, -⟩ := exact.first
  exact mem_significantIndices.mpr
    ⟨Nat.le_refl _, Nat.lt_succ_of_le exact.ordered, by simp [here, significant]⟩

theorem last_mem (exact : extent.Exact tokens)
    : extent.tokens.last ∈ extent.tokens.significant tokens := by
  obtain ⟨token, here, significant, -⟩ := exact.last
  exact mem_significantIndices.mpr
    ⟨exact.ordered, Nat.lt_succ_self _, by simp [here, significant]⟩

end Extent.Exact

namespace Partitions

variable {before after : List TokenRange} {range : TokenRange}

/-- Between a construct and those behind it there are only comments. -/
theorem comments_behind (partitions : Partitions tokens (before ++ range :: after) first stop)
    (last : range.last ∈ range.significant tokens) {bound : Nat} (inside : bound ≤ stop)
    (later : ∀ place ∈ after.flatMap (·.significant tokens), bound ≤ place)
    (between : Nat) (behind : range.last < between) (below : between < bound)
    : ¬tokens[between]?.any Token.isSignificant := by
  intro significant
  have joined := partitions.joined
  have ordered := pairwise_significantIndices tokens first stop
  rw [← joined, List.flatMap_append, List.flatMap_cons] at ordered
  have above : first ≤ range.last := by
    have member : range.last ∈ significantIndices tokens first stop := by
      simp [← joined, last]
    exact (mem_significantIndices.mp member).1
  have member : between ∈ significantIndices tokens first stop :=
    mem_significantIndices.mpr ⟨by omega, by omega, significant⟩
  rw [← joined, List.flatMap_append, List.flatMap_cons] at member
  rcases List.mem_append.mp member with earlier | member
  · have := (List.pairwise_append.mp ordered).2.2 between earlier range.last
      (List.mem_append_left _ last)
    omega
  · rcases List.mem_append.mp member with own | member
    · have := (mem_significantIndices.mp own).2.1
      omega
    · have := later between member
      omega

/-- The constructs behind another begin behind its last token. -/
theorem last_lt (partitions : Partitions tokens (before ++ range :: after) first stop)
    (last : range.last ∈ range.significant tokens) {place : Nat}
    (later : place ∈ after.flatMap (·.significant tokens))
    : range.last < place := by
  have ordered := pairwise_significantIndices tokens first stop
  rw [← partitions.joined, List.flatMap_append, List.flatMap_cons] at ordered
  exact (List.pairwise_append.mp (List.pairwise_append.mp ordered).2.1).2.2 _ last _ later

end Partitions

-----------------------------------------------------------------------------------------
-- Bodies
-----------------------------------------------------------------------------------------

/-- The last of some constructs is followed by what follows them all. -/
theorem Partitions.nextSignificant?_of_last {before : List TokenRange} {range : TokenRange}
    {token : Token} (partitions : Partitions tokens (before ++ [range]) first stop)
    (last : range.last ∈ range.significant tokens) (here : tokens[stop]? = some token)
    (significant : token.isSignificant)
    : nextSignificant? tokens range.last = some token := by
  have member : range.last ∈ significantIndices tokens first stop := by
    simp [← partitions.joined, last]
  exact nextSignificant?_eq_some (mem_significantIndices.mp member).2.1 here significant
    (partitions.comments_behind last (Nat.le_refl _) (by simp))

/-- Any other construct is followed by the first token of the next. -/
theorem Partitions.nextSignificant?_of_next {before after : List TokenRange} {range : TokenRange}
    {extent : Extent}
    (partitions : Partitions tokens (before ++ range :: extent.tokens :: after) first stop)
    (last : range.last ∈ range.significant tokens) (exact : extent.Exact tokens)
    : nextSignificant? tokens range.last = tokens[extent.tokens.first]? := by
  obtain ⟨token, here, significant, -⟩ := exact.first
  have among : extent.tokens.first ∈ (extent.tokens :: after).flatMap (·.significant tokens) := by
    rw [List.flatMap_cons]
    exact List.mem_append_left _ exact.first_mem
  have inside : extent.tokens.first ∈ significantIndices tokens first stop := by
    rw [← partitions.joined, List.flatMap_append, List.flatMap_cons]
    exact List.mem_append_right _ (List.mem_append_right _ among)
  rw [here]
  refine nextSignificant?_eq_some (partitions.last_lt last among) here significant
    (partitions.comments_behind last (Nat.le_of_lt (mem_significantIndices.mp inside).2.1) fun place member => ?_)
  rw [List.flatMap_cons] at member
  rcases List.mem_append.mp member with own | later
  · exact (mem_significantIndices.mp own).1
  · rw [List.append_cons] at partitions
    have := partitions.last_lt exact.last_mem later
    have := exact.ordered
    omega

/-- A closing brace follows the last element of a body and no other. -/
theorem Body.BracedAt.closes_behind_iff {body : Body} {opening closing : Nat} {extent : Extent}
    (braced : body.BracedAt tokens opening closing)
    (exact : ∀ extent ∈ body.extents, extent.Exact tokens)
    (opens : ∀ extent ∈ body.extents, extent.Opens tokens)
    (here : body.extents[index]? = some extent)
    : (nextSignificant? tokens extent.tokens.last).any (·.isPunctuator "\x7d")
      ↔ index + 1 = body.extents.length := by
  obtain ⟨inside, rfl⟩ := List.getElem?_eq_some_iff.mp here
  have split : body.extents
      = body.extents.take index ++ body.extents[index] :: body.extents.drop (index + 1) := by
    rw [← List.drop_eq_getElem_cons, List.take_append_drop]
  have partitions := braced.partitions
  rw [split, List.map_append, List.map_cons] at partitions
  have last := (exact _ (List.getElem_mem inside)).last_mem
  cases rest : body.extents.drop (index + 1) with
  | nil =>
      obtain ⟨token, there, closes, -⟩ := braced.closes
      have none := List.drop_eq_nil_iff.mp rest
      rw [rest] at partitions
      rw [partitions.nextSignificant?_of_last last there (Token.isSignificant_of_isPunctuator closes)]
      simp only [Option.any_some, closes, true_iff]
      omega
  | cons next others =>
      have among : next ∈ body.extents :=
        List.mem_of_mem_drop (rest ▸ List.mem_cons_self)
      have more := congrArg List.length rest
      simp only [List.length_drop, List.length_cons] at more
      rw [rest, List.map_cons] at partitions
      rw [partitions.nextSignificant?_of_next last (exact next among)]
      refine iff_of_false (fun closes => ?_) (by omega)
      obtain ⟨token, there, closes⟩ := (Option.any_eq_true ..).mp closes
      simp [opens next among token there] at closes

/-- The elements of a body are the last of the nodes that its holder consists of. -/
theorem Node.exists_extents_of_body? {node : Node} {body : Body} (holds : node.body? = some body)
    : ∃ front elements, node.children = front ++ elements
        ∧ (∀ child ∈ front, child.extent? = none)
        ∧ elements.map Node.extent? = body.extents.map some := by
  rcases exists_of_body? holds with ⟨⟨statements, span⟩, rfl, rfl⟩
    | ⟨⟨superClass, members, span⟩, rfl, rfl⟩
  · exact ⟨[], statements.map .statement, rfl, by simp, by simp [Block.toBody, Node.extent?]⟩
  · exact ⟨superClass.toList.map .expression, members.map .classMember, rfl,
      by simp [Node.extent?], by simp [ClassDef.toBody, Node.extent?]⟩

/-- A closing brace follows the last of the elements of a block or class, and no other of them. -/
theorem Node.closes_behind_iff {node inner : Node} {body : Body} {opening closing : Nat}
    {extent : Extent} (holds : node.body? = some body)
    (braced : body.BracedAt tokens opening closing)
    (fits
      : ∀ child ∈ node.children, ∀ extent, child.extent? = some extent →
          extent.Exact tokens ∧ extent.Opens tokens)
    (here : node.children[index]? = some inner) (own : inner.extent? = some extent)
    : (nextSignificant? tokens extent.tokens.last).any (·.isPunctuator "\x7d")
      ↔ index + 1 = node.children.length := by
  obtain ⟨front, elements, split, unlike, same⟩ := exists_extents_of_body? holds
  have known (extent : Extent) (among : extent ∈ body.extents)
      : ∃ child ∈ node.children, child.extent? = some extent := by
    have member : some extent ∈ elements.map Node.extent? := same ▸ List.mem_map_of_mem among
    obtain ⟨child, element, found⟩ := List.mem_map.mp member
    exact ⟨child, split ▸ List.mem_append_right _ element, found⟩
  have behind : front.length ≤ index := by
    refine Nat.not_lt.mp fun before => ?_
    rw [split, List.getElem?_append_left before] at here
    simp [unlike inner (List.mem_of_getElem? here)] at own
  have place : body.extents[index - front.length]? = some extent := by
    rw [split, List.getElem?_append_right behind] at here
    have found : (elements.map Node.extent?)[index - front.length]? = some (some extent) := by
      rw [List.getElem?_map, here, Option.map_some, own]
    rw [same, List.getElem?_map] at found
    obtain ⟨_, there, equal⟩ := Option.map_eq_some_iff.mp found
    exact there.trans equal
  have lengths := congrArg List.length same
  simp only [List.length_map] at lengths
  rw [braced.closes_behind_iff
    (fun extent among => by
      obtain ⟨child, direct, found⟩ := known extent among
      exact (fits child direct extent found).1)
    (fun extent among => by
      obtain ⟨child, direct, found⟩ := known extent among
      exact (fits child direct extent found).2) place, split, List.length_append, lengths]
  omega

end ScriptStyle
