import ScriptStyle.Proofs.Tree.Marks

/-!
How the tokens of a source are laid out over the nodes of its tree. Statements and class members
share out the significant tokens around them, bodies lie between braces that match, and the span
of a node lies in those of the nodes around it.
-/

namespace ScriptStyle

-----------------------------------------------------------------------------------------
-- Significant tokens
-----------------------------------------------------------------------------------------

/-- The indices of the significant tokens from one index up to but not including another. -/
def significantIndices (tokens : List Token) (first stop : Nat) : List Nat :=
  (List.range' first (stop - first)).filter fun index => tokens[index]?.any Token.isSignificant

/-- The indices of the significant tokens of a construct. -/
def TokenRange.significant (range : TokenRange) (tokens : List Token) : List Nat :=
  significantIndices tokens range.first (range.last + 1)

/-- Constructs that have, one after another, just the significant tokens from one index up to
another, and each of them some. -/
structure Partitions (tokens : List Token) (ranges : List TokenRange) (first stop : Nat)
    : Prop where
  nonempty : ∀ range ∈ ranges, range.significant tokens ≠ []
  joined : ranges.flatMap (·.significant tokens) = significantIndices tokens first stop

section Significant

variable {tokens : List Token} {first middle stop index : Nat}

theorem mem_significantIndices
    : index ∈ significantIndices tokens first stop
      ↔ first ≤ index ∧ index < stop ∧ tokens[index]?.any Token.isSignificant := by
  simp only [significantIndices, List.mem_filter, List.mem_range'_1, and_assoc]
  exact and_congr_right fun above => and_congr_left' (by omega)

theorem significantIndices_append (before : first ≤ middle) (behind : middle ≤ stop)
    : significantIndices tokens first middle ++ significantIndices tokens middle stop
      = significantIndices tokens first stop := by
  rw [significantIndices, significantIndices, ← List.filter_append, significantIndices,
    show stop - first = (middle - first) + (stop - middle) by omega, ← List.range'_append_1,
    Nat.add_sub_cancel' before]

/-- Where there are only comments there are no indices of significant tokens. -/
theorem significantIndices_eq_nil
    (comments : ∀ index, first ≤ index → index < stop → ¬tokens[index]?.any Token.isSignificant)
    : significantIndices tokens first stop = [] := by
  refine List.eq_nil_iff_forall_not_mem.mpr fun index member => ?_
  obtain ⟨above, below, significant⟩ := mem_significantIndices.mp member
  exact comments index above below significant

namespace Partitions

variable {range : TokenRange} {ranges : List TokenRange}

theorem nil (comments : significantIndices tokens first stop = [])
    : Partitions tokens [] first stop :=
  ⟨by simp, comments.symm⟩

theorem cons (whole : range.significant tokens = significantIndices tokens first middle)
    (nonempty : range.significant tokens ≠ []) (before : first ≤ middle) (behind : middle ≤ stop)
    (rest : Partitions tokens ranges middle stop)
    : Partitions tokens (range :: ranges) first stop where
  nonempty := List.forall_mem_cons.mpr ⟨nonempty, rest.nonempty⟩
  joined := by
    rw [List.flatMap_cons, whole, rest.joined, significantIndices_append before behind]

/-- Comments around constructs change nothing. -/
theorem widen {first' stop' : Nat} (partitions : Partitions tokens ranges first stop)
    (before : first' ≤ first) (inner : first ≤ stop) (behind : stop ≤ stop')
    (front : significantIndices tokens first' first = [])
    (back : significantIndices tokens stop stop' = [])
    : Partitions tokens ranges first' stop' where
  nonempty := partitions.nonempty
  joined := by
    rw [partitions.joined, ← significantIndices_append (Nat.le_trans before inner) behind,
      ← significantIndices_append before inner, front, back, List.nil_append, List.append_nil]

end Partitions

end Significant

-----------------------------------------------------------------------------------------
-- Braces
-----------------------------------------------------------------------------------------

/-- The number of tokens in front of the brace that closes a brace behind the given number of
others that are closed before it. -/
def tokensToClose? : Nat → List Token → Option Nat
  | _, [] => none
  | depth, token :: rest =>
      if token.isPunctuator "\x7b" then
        (tokensToClose? (depth + 1) rest).map (· + 1)
      else if token.isPunctuator "\x7d" then
        match depth with
        | 0 => some 0
        | outer + 1 => (tokensToClose? outer rest).map (· + 1)
      else
        (tokensToClose? depth rest).map (· + 1)

/-- The index of the brace that matches the opening brace with the given index. -/
def matchingBrace? (tokens : List Token) (opening : Nat) : Option Nat :=
  (tokensToClose? 0 (tokens.drop (opening + 1))).map (opening + 1 + ·)

/-- Whether a token is a brace. -/
def Token.isBrace (token : Token) : Bool :=
  token.isPunctuator "\x7b" || token.isPunctuator "\x7d"

/-- Tokens whose braces match each other. -/
inductive Balanced : List Token → Prop
  | nil : Balanced []
  | token {token : Token} (unbraced : token.isBrace = false) : Balanced [token]
  | append {tokens others : List Token} (first : Balanced tokens) (second : Balanced others)
    : Balanced (tokens ++ others)
  | braced {opening closing : Token} {tokens : List Token} (opens : opening.isPunctuator "\x7b")
    (closes : closing.isPunctuator "\x7d") (inside : Balanced tokens)
    : Balanced (opening :: tokens ++ [closing])

/-- No brace is two at once. -/
theorem Token.not_opens_of_closes {token : Token} (closes : token.isPunctuator "\x7d")
    : token.isPunctuator "\x7b" = false := by
  simp only [Token.isPunctuator, Bool.and_eq_true, beq_iff_eq] at closes
  simp [Token.isPunctuator, closes]

namespace Balanced

variable {tokens others : List Token}

theorem of_unbraced (unbraced : ∀ token ∈ tokens, token.isBrace = false)
    : Balanced tokens := by
  induction tokens with
  | nil => exact .nil
  | cons first rest ih =>
      obtain ⟨here, later⟩ := List.forall_mem_cons.mp unbraced
      exact .append (.token here) (ih later)

/-- A brace is not closed within tokens whose braces match each other. -/
theorem tokensToClose?_append (balanced : Balanced tokens) (depth : Nat) (others : List Token)
    : tokensToClose? depth (tokens ++ others)
      = (tokensToClose? depth others).map (· + tokens.length) := by
  induction balanced generalizing depth others with
  | nil => simp
  | token unbraced =>
      simp only [Token.isBrace, Bool.or_eq_false_iff] at unbraced
      simp [tokensToClose?, unbraced]
  | append _ _ first second =>
      rw [List.append_assoc, first, second, Option.map_map]
      congr 1
      funext count
      simp only [Function.comp_apply, List.length_append]
      omega
  | @braced _ _ inner opens closes _ ih =>
      have closed := Token.not_opens_of_closes closes
      simp only [List.cons_append, List.append_assoc, tokensToClose?, opens, if_true, ih, closed,
        Bool.false_eq_true, if_false, closes, Option.map_map]
      congr 1
      funext count
      simp only [Function.comp_apply, List.length_cons, List.length_append, List.length_nil]
      omega

/-- Tokens whose braces match each other do not begin with a brace that closes another. -/
theorem not_closes_of_head? (balanced : Balanced tokens) {token : Token}
    (first : tokens.head? = some token)
    : token.isPunctuator "\x7d" = false := by
  induction balanced with
  | nil => cases first
  | token unbraced =>
      obtain rfl := Option.some.inj first
      exact (Bool.or_eq_false_iff.mp unbraced).2
  | @append front _ _ _ ih ih' =>
      cases front with
      | nil => exact ih' first
      | cons => exact ih first
  | braced opens =>
      obtain rfl := Option.some.inj first
      exact Bool.eq_false_iff.mpr fun closes => by simp [Token.not_opens_of_closes closes] at opens

/-- A brace behind which tokens match each other up to a closing brace is matched by that. -/
theorem matchingBrace?_eq {before : List Token} {opening closing : Token}
    (balanced : Balanced tokens) (closes : closing.isPunctuator "\x7d")
    : matchingBrace? (before ++ opening :: tokens ++ closing :: others) before.length
      = some (before.length + 1 + tokens.length) := by
  have behind : (before ++ opening :: tokens ++ closing :: others).drop (before.length + 1)
      = tokens ++ closing :: others := by
    simp
  have closed : tokensToClose? 0 (closing :: others) = some 0 := by
    simp [tokensToClose?, closes, Token.not_opens_of_closes closes]
  rw [matchingBrace?, behind, balanced.tokensToClose?_append, closed]
  simp

end Balanced

-----------------------------------------------------------------------------------------
-- Extents and bodies
-----------------------------------------------------------------------------------------

/-- An extent agrees with the tokens: it begins with its first token and ends with its last one,
and these are no comments. -/
structure Extent.Exact (extent : Extent) (tokens : List Token) : Prop where
  ordered : extent.tokens.first ≤ extent.tokens.last
  first
    : ∃ token, tokens[extent.tokens.first]? = some token ∧ token.isSignificant
        ∧ token.span.start = extent.span.start
  last
    : ∃ token, tokens[extent.tokens.last]? = some token ∧ token.isSignificant
        ∧ token.span.stop = extent.span.stop

theorem Extent.Exact.significant_ne_nil {extent : Extent} {tokens : List Token}
    (exact : extent.Exact tokens)
    : extent.tokens.significant tokens ≠ [] := by
  obtain ⟨token, here, significant, -⟩ := exact.first
  refine List.ne_nil_of_mem (mem_significantIndices.mpr
    ⟨Nat.le_refl _, Nat.lt_succ_of_le exact.ordered, ?_⟩)
  simp [here, significant]

/-- The first token of an extent closes no brace. -/
def Extent.Opens (extent : Extent) (tokens : List Token) : Prop :=
  ∀ token, tokens[extent.tokens.first]? = some token → token.isPunctuator "\x7d" = false

/-- Constructs between braces; the span includes the braces. -/
structure Body where
  span : Span
  extents : List Extent

def Block.toBody (block : Block) : Body :=
  ⟨block.span, block.body.map Statement.extent⟩

def ClassDef.toBody (definition : ClassDef) : Body :=
  ⟨definition.span, definition.members.map ClassMember.extent⟩

/-- A body from an opening brace to the brace that matches it, with all the tokens in between. -/
structure Body.BracedAt (tokens : List Token) (body : Body) (opening closing : Nat) : Prop where
  opens
    : ∃ token, tokens[opening]? = some token ∧ token.isPunctuator "\x7b"
        ∧ token.span.start = body.span.start
  closes
    : ∃ token, tokens[closing]? = some token ∧ token.isPunctuator "\x7d"
        ∧ token.span.stop = body.span.stop
  matching : matchingBrace? tokens opening = some closing
  partitions : Partitions tokens (body.extents.map Extent.tokens) (opening + 1) closing
  encloses : ∀ extent ∈ body.extents, body.span.encloses extent.span

-----------------------------------------------------------------------------------------
-- Spans
-----------------------------------------------------------------------------------------

namespace Span

variable {outer middle inner : Span}

theorem encloses_iff
    : outer.encloses inner ↔ outer.start ≤ inner.start ∧ inner.stop ≤ outer.stop := by
  simp [encloses]

theorem encloses_refl (span : Span)
    : span.encloses span :=
  encloses_iff.mpr ⟨Nat.le_refl _, Nat.le_refl _⟩

theorem encloses_trans (first : outer.encloses middle) (second : middle.encloses inner)
    : outer.encloses inner := by
  rw [encloses_iff] at *
  omega

end Span

namespace Node

/-- The span of a node, if it is kept. -/
def span? : Node → Option Span
  | expression value => some value.span
  | statement value => some value.extent.span
  | block value => some value.span
  | classMember value => some value.extent.span
  | template value => some value.span
  | propertyKey (.identifier span) | propertyKey (.privateName span) | propertyKey (.string span)
  | propertyKey (.number span) => some span
  | moduleName (.identifier span) | moduleName (.string span) | moduleSource span => some span
  | declarator _ | forHead _ | switchCase _ | catchClause _ | function _ | .class _
  | propertyKey (.computed _) | property _ | specifier _ | importAttribute _ => none

/-- The spans in a node that are not those of other nodes. -/
def heldSpans : Node → List Span
  | expression (.member _ name _) => [name]
  | template value => value.quasis
  | property (.shorthand name _) => [name]
  | .class value => [value.span]
  | _ => []

/-- All spans that are kept in a node, those of the nodes that it consists of apart. -/
def spans (node : Node) : List Span :=
  node.span?.toList ++ node.heldSpans

/-- The extent of a statement or class member. -/
def extent? : Node → Option Extent
  | statement value => some value.extent
  | classMember value => some value.extent
  | _ => none

/-- The body of a block or class. -/
def body? : Node → Option Body
  | block value => some value.toBody
  | .class value => some value.toBody
  | _ => none

theorem exists_of_body? {node : Node} {body : Body} (holds : node.body? = some body)
    : (∃ value, node = .block value ∧ value.toBody = body)
      ∨ ∃ definition, node = .class definition ∧ definition.toBody = body := by
  unfold Node.body? at holds
  split at holds
  · exact .inl ⟨_, rfl, Option.some.inj holds⟩
  · exact .inr ⟨_, rfl, Option.some.inj holds⟩
  · cases holds

/-- Whether an expression neither accesses a property by its name nor is an arrow function with
a block. -/
def isSimple : Expression → Bool
  | .member _ _ _ | .arrowBlock _ _ _ _ => false
  | _ => true

/-- Whether a node is no more than what it consists of. -/
def isGroup : Node → Bool
  | declarator _ | forHead _ | switchCase _ | catchClause _ | function _ | specifier _
  | importAttribute _ | propertyKey (.computed _) | property (.keyValue _ _)
  | property (.method _ _) | property (.spread _) => true
  | _ => false

/-- A node lies in a span and agrees with the tokens, and so does all that it consists of. -/
inductive Fits (tokens : List Token) : Span → Node → Prop
  | intro {outer : Span} {node : Node}
    (own : ∀ span, node.span? = some span → outer.encloses span)
    (held : ∀ span ∈ node.heldSpans, (node.span?.getD outer).encloses span)
    (extent
      : ∀ extent, node.extent? = some extent → extent.Exact tokens ∧ extent.Opens tokens)
    (body : ∀ body, node.body? = some body → ∃ opening closing, body.BracedAt tokens opening closing)
    (children : ∀ child ∈ node.children, Fits tokens (node.span?.getD outer) child)
    : Fits tokens outer node

/-- The index of the brace that closes an arrow function in a node. -/
def ClosesArrow (tokens : List Token) (node : Node) (index : Nat) : Prop :=
  ∃ params body isAsync span opening,
    (expression (.arrowBlock params body isAsync span)).Within node
      ∧ body.toBody.BracedAt tokens opening index

variable {tokens : List Token} {outer wider : Span} {node inner : Node} {index : Nat}

/-- The span of a node, or the one around it, lies in the one around it. -/
theorem encloses_span? (own : ∀ span, node.span? = some span → outer.encloses span)
    : outer.encloses (node.span?.getD outer) := by
  cases found : node.span? with
  | none => exact Span.encloses_refl _
  | some span => exact own span found

namespace Fits

theorem own (fits : node.Fits tokens outer) {span : Span} (found : node.span? = some span)
    : outer.encloses span := by
  obtain ⟨own⟩ := fits
  exact own span found

/-- All spans of a node lie in the span around it. -/
theorem encloses (fits : node.Fits tokens outer) {span : Span} (found : span ∈ node.spans)
    : outer.encloses span := by
  obtain ⟨own, held⟩ := fits
  rcases List.mem_append.mp found with here | inside
  · exact own span (Option.mem_toList.mp here)
  · exact Span.encloses_trans (encloses_span? own) (held span inside)

/-- What lies in a span lies in any wider one. -/
theorem mono (fits : node.Fits tokens outer) (around : wider.encloses outer)
    : node.Fits tokens wider := by
  induction fits generalizing wider with
  | @intro outer node own held extent body _ ih =>
      have spans : (node.span?.getD wider).encloses (node.span?.getD outer) := by
        cases node.span? with
        | none => exact around
        | some span => exact Span.encloses_refl span
      refine ⟨fun span found => Span.encloses_trans around (own span found),
        fun span found => Span.encloses_trans spans (held span found), extent, body,
        fun child direct => ih child direct spans⟩

/-- A node lies in its own span. -/
theorem in_own (fits : node.Fits tokens outer)
    : node.Fits tokens (node.span?.getD outer) := by
  cases found : node.span? with
  | none => exact fits
  | some span =>
      obtain ⟨-, held, extent, body, children⟩ := fits
      rw [found] at held children
      refine ⟨fun same equal => ?_, by rwa [found], extent, body, by rwa [found]⟩
      obtain rfl := Option.some.inj (found.symm.trans equal)
      exact Span.encloses_refl span

/-- What a node consists of lies in the span of that node. -/
theorem within (fits : node.Fits tokens outer) (inside : inner.Within node)
    : inner.Fits tokens (node.span?.getD outer) := by
  induction inside generalizing outer with
  | refl => exact fits.in_own
  | step direct _ ih =>
      obtain ⟨-, -, -, -, children⟩ := fits
      have child := children _ direct
      exact (ih child).mono (encloses_span? fun _ => child.own)

/-- What is in a node fits in the spans of the nodes around it. -/
theorem inner_encloses {middle : Node} {around span : Span} (fits : node.Fits tokens outer)
    (contains : middle.Within node) (inside : inner.Within middle)
    (found : middle.span? = some around) (among : span ∈ inner.spans)
    : around.encloses span := by
  have lies := ((fits.within contains).within inside).encloses among
  rwa [found] at lies

end Fits

theorem closesArrow_iff
    : node.ClosesArrow tokens index
      ↔ (∃ params body isAsync span opening,
          node = expression (.arrowBlock params body isAsync span)
            ∧ body.toBody.BracedAt tokens opening index)
        ∨ ∃ child ∈ node.children, child.ClosesArrow tokens index := by
  constructor
  · rintro ⟨params, body, isAsync, span, opening, within, braced⟩
    cases within with
    | refl => exact .inl ⟨params, body, isAsync, span, opening, rfl, braced⟩
    | step direct deeper =>
        exact .inr ⟨_, direct, params, body, isAsync, span, opening, deeper, braced⟩
  · rintro (⟨params, body, isAsync, span, opening, rfl, braced⟩
      | ⟨child, direct, params, body, isAsync, span, opening, within, braced⟩)
    · exact ⟨params, body, isAsync, span, opening, .refl _, braced⟩
    · exact ⟨params, body, isAsync, span, opening, .step direct within, braced⟩

-----------------------------------------------------------------------------------------
-- Marks
-----------------------------------------------------------------------------------------

theorem closesArrow_markedAs {value : Statement} {isDirective : Bool}
    : (statement (value.markedAs isDirective)).ClosesArrow tokens index
      ↔ (statement value).ClosesArrow tokens index := by
  rw [closesArrow_iff, closesArrow_iff, children_markedAs]
  simp

theorem closesArrow_markBody {body : List Statement}
    : (∃ node ∈ (markBody body).map statement, node.ClosesArrow tokens index)
      ↔ ∃ node ∈ body.map statement, node.ClosesArrow tokens index := by
  simp only [List.mem_map, exists_exists_and_eq_and]
  constructor
  · rintro ⟨marked, among, closes⟩
    obtain ⟨value, member, isDirective, rfl⟩ := mem_markBody among
    exact ⟨value, member, closesArrow_markedAs.mp closes⟩
  · rintro ⟨value, member, closes⟩
    obtain ⟨isDirective, among⟩ := exists_mem_markBody member
    exact ⟨_, among, closesArrow_markedAs.mpr closes⟩

theorem Fits.markedAs {value : Statement} (fits : (statement value).Fits tokens outer)
    (isDirective : Bool)
    : (statement (value.markedAs isDirective)).Fits tokens outer := by
  obtain ⟨own, -, extent, -, children⟩ := fits
  constructor
  case own => simpa [span?] using own
  case held => simp [heldSpans]
  case extent => simpa [extent?] using extent
  case body => simp [body?]
  case children => simpa [span?, children_markedAs] using children

theorem fits_markBody {body : List Statement}
    (all : ∀ node ∈ body.map statement, node.Fits tokens outer)
    : ∀ node ∈ (markBody body).map statement, node.Fits tokens outer := by
  intro node among
  obtain ⟨marked, element, rfl⟩ := List.mem_map.mp among
  obtain ⟨value, member, isDirective, rfl⟩ := mem_markBody element
  exact (all _ (List.mem_map_of_mem member)).markedAs isDirective

@[simp] theorem toBody_asBody (value : Block)
    : value.asBody.toBody = value.toBody := by
  rw [Block.toBody, Block.asBody, map_extent_markBody, Block.toBody]

theorem closesArrow_asBody {value : Block}
    : (block value.asBody).ClosesArrow tokens index
      ↔ (block value).ClosesArrow tokens index := by
  rw [closesArrow_iff, closesArrow_iff, children_block, children_block, Block.asBody,
    closesArrow_markBody]
  simp

theorem Fits.asBody {value : Block} (fits : (block value).Fits tokens outer)
    : (block value.asBody).Fits tokens outer := by
  obtain ⟨own, held, extent, body, children⟩ := fits
  constructor
  case own => exact own
  case held => exact held
  case extent => exact extent
  case body => simpa [body?] using body
  case children =>
    rw [children_block] at children ⊢
    exact fits_markBody children

end Node

end ScriptStyle
