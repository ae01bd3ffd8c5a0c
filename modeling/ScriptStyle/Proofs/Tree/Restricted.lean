import ScriptStyle.Proofs.Tree.Marks

/-!
Restricted productions: places in a tree where the line must not be broken, since a break there
would end the statement or give a word another meaning.
-/

namespace ScriptStyle

/-- The token that begins at an offset is followed on its line, and something is said of it, of
the significant token behind it and of those after that. -/
def Attached (tokens : List Token) (start : Nat) (P : Token → Token → List Token → Prop) : Prop :=
  ∃ (word next : Token) (after : List Token),
    word :: next :: after <:+ tokens.filter Token.isSignificant ∧ word.span.start = start
      ∧ next.newlineBefore = false ∧ P word next after

/-- The word in front of asynchronous functions begins at an offset and is followed on its line. -/
def AttachedAsync (tokens : List Token) (start : Nat) : Prop :=
  Attached tokens start fun word _ _ => word.isTerminal "async"

/-- Tokens that begin with a property name. -/
def PropertyKey.Opens : PropertyKey → List Token → Prop
  | .identifier span, first :: _ | .privateName span, first :: _ | .string span, first :: _
  | .number span, first :: _ => first.span = span
  | .computed value, bracket :: first :: _ =>
      bracket.isPunctuator "[" ∧ first.span.start = value.span.start
  | _, _ => False

/-- Right in front of the name of a method, but for an asterisk, is the word that makes it
asynchronous, which is followed on its line. -/
def PropertyKey.FollowsAsync (tokens : List Token) (key : PropertyKey) : Prop :=
  ∃ start, Attached tokens start fun word next after =>
    word.isTerminal "async" ∧ (key.Opens (next :: after) ∨ next.isPunctuator "*" ∧ key.Opens after)

/-- All words of a construct but its first token stand on the line of the token before them. -/
def Extent.WordsInLine (extent : Extent) (tokens : List Token) : Prop :=
  ∀ (index : Nat) (token : Token), extent.tokens.first < index → index ≤ extent.tokens.last →
    tokens[index]? = some token → token.kind = .identifier → token.newlineBefore = false

namespace Node

/-- No line is broken where a node restricts it. The value that is thrown may begin a line. -/
def Unbroken (tokens : List Token) : Node → Prop
  | statement (.returning (some value) placement) =>
      Attached tokens placement.span.start fun _ next _ => next.span.start = value.span.start
  -- The only other word of a jump is its label.
  | statement (.breaking placement) | statement (.continuing placement) =>
      placement.WordsInLine tokens
  | expression (.yield (some operand) span) =>
      Attached tokens span.start fun _ next _ =>
        next.isPunctuator "*" ∨ next.span.start = operand.span.start
  -- An operand that begins the operation has the operator behind it.
  | expression (.update operand span) =>
      operand.span.start = span.start →
        ∃ operator ∈ tokens, operator.isPunctuatorIn ["++", "--"]
          ∧ operator.span.stop = span.stop ∧ operator.newlineBefore = false
  | statement (.function definition placement) =>
      definition.isAsync → AttachedAsync tokens placement.span.start
  | expression (.function definition span) =>
      definition.isAsync → AttachedAsync tokens span.start
  | expression (.arrowBlock _ _ isAsync span) | expression (.arrowValue _ _ isAsync span) =>
      isAsync → AttachedAsync tokens span.start
  | classMember (.method key definition _ _) | property (.method key definition) =>
      definition.isAsync → key.FollowsAsync tokens
  | _ => True

/-- No line is broken where a node, or one of those that it consists of, restricts it. -/
inductive Intact (tokens : List Token) : Node → Prop
  | intro {node : Node} (own : node.Unbroken tokens)
    (children : ∀ child ∈ node.children, Intact tokens child) : Intact tokens node

namespace Intact

variable {tokens : List Token} {node inner outer : Node}

theorem own (intact : node.Intact tokens)
    : node.Unbroken tokens := by
  cases intact with
  | intro own => exact own

theorem within (intact : outer.Intact tokens) (within : inner.Within outer)
    : inner.Intact tokens := by
  induction within with
  | refl => exact intact
  | step direct _ ih =>
      cases intact with
      | intro _ children => exact ih (children _ direct)

/-- A mark on a statement has nothing to do with lines. -/
theorem markedAs {value : Statement} (intact : (statement value).Intact tokens)
    (isDirective : Bool)
    : (statement (value.markedAs isDirective)).Intact tokens := by
  obtain ⟨own, children⟩ := intact
  refine .intro ?_ (children_markedAs value _ ▸ children)
  cases value with
  | returning operand placement => cases operand <;> exact own
  | _ => exact own

theorem asBody {value : Block} (intact : (block value).Intact tokens)
    : (block value.asBody).Intact tokens := by
  obtain ⟨-, children⟩ := intact
  refine .intro trivial fun child direct => ?_
  obtain ⟨marked, among, rfl⟩ := List.mem_map.mp (children_block value.asBody ▸ direct)
  obtain ⟨element, inside, isDirective, rfl⟩ := mem_markBody among
  exact (children _ (children_block value ▸ List.mem_map_of_mem inside)).markedAs isDirective

end Intact

end Node

end ScriptStyle
