import Mathlib.Data.List.Basic
import Mathlib.Data.List.Perm.Basic
import ScriptStyle.Grammar.Parser
import ScriptStyle.Rule.Semicolons
import ScriptStyle.Tree.Walk

/-!
What the shown parts of a tree say of the tokens of its source: which of these begin literals,
where the constructs end that may end with a semicolon, and whose each semicolon is.
-/

namespace ScriptStyle

-----------------------------------------------------------------------------------------
-- Tokens
-----------------------------------------------------------------------------------------

/-- The literal that begins with a token: its kind, and its span or, where a substitution
follows, the place at which it begins. -/
def Token.literal? (token : Token) : Option (TokenKind × Span) :=
  match token.kind with
  | .string | .template => some (token.kind, token.span)
  | .templateHead => some (.templateHead, ⟨token.span.start, token.span.start⟩)
  | _ => none

/-- A token with which a literal begins is no punctuator. -/
theorem Token.not_isPunctuator_of_literal? {token : Token} {key : TokenKind × Span}
    (literal : token.literal? = some key) (text : String)
    : token.isPunctuator text = false := by
  cases kind : token.kind <;> simp_all [Token.isPunctuator, Token.literal?]

/-- A literal begins where its token does, and not behind it. -/
theorem Token.span_of_literal? {token : Token} {key : TokenKind × Span}
    (literal : token.literal? = some key)
    : key.2.start = token.span.start
      ∧ (key.2.stop = token.span.stop ∨ key.2.stop = token.span.start) := by
  cases kind : token.kind <;> simp_all [Token.literal?] <;> simp [← literal]

theorem Token.literal?_of_isComment {token : Token} (isComment : token.kind.isComment)
    : token.literal? = none := by
  cases kind : token.kind <;> simp_all [TokenKind.isComment, Token.literal?]

/-- The kinds of tokens that are neither punctuators nor begin literals. -/
def TokenKind.isPlain (kind : TokenKind) : Bool :=
  !([TokenKind.punctuator, .string, .template, .templateHead].contains kind)

/-- Whether a semicolon has the given index. -/
def isSemicolonAt (tokens : List Token) (index : Nat) : Bool :=
  tokens[index]?.any (·.isPunctuator ";")

/-- The first significant token after an index. -/
def nextSignificant? (tokens : List Token) (index : Nat) : Option Token :=
  (tokens.drop (index + 1)).find? Token.isSignificant

/-- Whether a span lies in another. -/
def Span.encloses (outer inner : Span) : Bool :=
  decide (outer.start ≤ inner.start) && decide (inner.stop ≤ outer.stop)

-----------------------------------------------------------------------------------------
-- Parts
-----------------------------------------------------------------------------------------

/-- Where a declared variable ends, its initial value counted. -/
def Declarator.stop (entry : Declarator) : Nat :=
  match entry.init with
  | some value => value.span.stop
  | none => entry.target.span.stop

/-- The span of what stands first in the head of a loop, the keyword of a declaration apart. -/
def ForHead.span : ForHead → Span
  | .declaration _ declarators =>
      ⟨(declarators.head?.map fun entry => entry.target.span.start).getD 0,
        (declarators.getLast?.map Declarator.stop).getD 0⟩
  | .value initial => initial.span

/-- What a template says of its own text: there is a piece of it around each substitution, all
within its delimiters, and without substitutions the one piece is all between these. -/
structure TemplateLiteral.Quoted (literal : TemplateLiteral) : Prop where
  pieces : literal.quasis.length = literal.substitutions.length + 1
  inside
    : ∀ quasi ∈ literal.quasis, literal.span.start ≤ quasi.start ∧ quasi.start ≤ quasi.stop
        ∧ quasi.stop ≤ literal.span.stop
  whole : literal.substitutions = [] → literal.quasis = [literal.span.shrink 1 1]

namespace Shown

/-- The kind and the place of a literal: its span, or where it begins if it has substitutions. -/
def literal? : Shown → Option (TokenKind × Span)
  | .string span _ => some (.string, span)
  | .template literal _ =>
      if literal.substitutions.isEmpty then
        some (.template, literal.span)
      else
        some (.templateHead, ⟨literal.span.start, literal.span.start⟩)
  | .statement _ _ | .classMember _ _ => none

/-- Where a construct stands that may end with a semicolon. -/
def ending? (part : Shown) : Option Extent :=
  (Semicolons.terminated? part).map fun found => found.1.extent

/-- The expression with which such a construct ends, its semicolon apart. -/
def tail? : Shown → Option Expression
  | .statement (.expression value _) _ | .statement (.throwing value _) _
  | .statement (.exportDefaultValue value _) _ => some value
  | .statement (.declaration _ declarators _) _ => declarators.getLast?.bind Declarator.init
  | .statement (.returning value _) _ => value
  | .classMember (.field _ value _ _) _ => value
  | _ => none

/-- Where a statement or class member stands that is a semicolon alone. -/
def empty? : Shown → Option Extent
  | .statement (.empty placement) _ => some placement.toExtent
  | .classMember (.empty extent) _ => some extent
  | _ => none

/-- Whether a part is a loop with its test at the end, after which no new line is needed. -/
def isDoWhile : Shown → Bool
  | .statement (.doWhile _ _ _) _ => true
  | _ => false

/-- Whether a part is a loop with three parts in its head. -/
def isForLoop : Shown → Bool
  | .statement (.forLoop _ _ _ _ _) _ => true
  | _ => false

/-- The indices of the semicolons that separate the parts in the head of a loop: those in front
of its body that lie in none of the parts. -/
def separators (tokens : List Token) : Shown → List Nat
  | .statement (.forLoop init test update body placement) _ =>
      let parts := (init.map ForHead.span).toList ++ (test.map Expression.span).toList
        ++ (update.map Expression.span).toList
      (List.range body.extent.tokens.first).filter fun index =>
        decide (placement.tokens.first ≤ index) && tokens[index]?.any fun token =>
          token.isPunctuator ";" && !parts.any (·.encloses token.span)
  | _ => []

/-- The indices of the semicolons that belong to a part itself. -/
def semicolons (tokens : List Token) (part : Shown) : List Nat :=
  (part.ending?.map (·.tokens.last)).toList.filter (isSemicolonAt tokens)
    ++ (part.empty?.map (·.tokens.last)).toList ++ part.separators tokens

/-- The parser with which a construct ends. -/
def endParser (part : Shown) : Grammar.Parser Unit :=
  if part.isDoWhile then
    (fun _ => ()) <$> Grammar.Parser.eat ";"
  else
    Grammar.Parser.consumeSemicolon

/-- How a construct ends that may end with a semicolon, with the cursors behind its content and
behind its end. The last token of the content is no semicolon. What follows it is a semicolon of
its own, or nothing where that may be left out. -/
structure Ends (tokens : List Token) (part : Shown) (extent : Extent) (content stop : Grammar.Cursor)
    (token : Token) : Prop where
  before : content.behind.toList <+: tokens
  reads : part.endParser content = .ok ((), stop)
  behind : stop.behind.toList <+: tokens
  last : extent.tokens.last = stop.lastIndex
  here : tokens[content.lastIndex]? = some token
  significant : token.isSignificant
  noSemicolon : token.isPunctuator ";" = false
  tail : ∀ value, part.tail? = some value → value.span.stop = token.span.stop
  terminator
    : (content.sees ";" ∧ ∃ semicolon, tokens[extent.tokens.last]? = some semicolon
        ∧ semicolon.isPunctuator ";" ∧ nextSignificant? tokens content.lastIndex = some semicolon
        ∧ extent.span.stop = semicolon.span.stop)
      ∨ (¬content.sees ";" ∧ content.lastIndex = extent.tokens.last
        ∧ extent.span.stop = token.span.stop
        ∧ (part.isDoWhile ∨ ∀ next, nextSignificant? tokens content.lastIndex = some next
          → next.isPunctuator "\x7d" ∨ next.newlineBefore))

/-- What a shown part says of the tokens that it is made from. -/
structure Grounded (tokens : List Token) (part : Shown) : Prop where
  template : ∀ literal site, part = .template literal site → literal.Quoted
  ending
    : ∀ extent, part.ending? = some extent → ∃ content stop token, part.Ends tokens extent content stop token
  empty
    : ∀ extent, part.empty? = some extent → extent.tokens.first = extent.tokens.last
        ∧ ∃ token, tokens[extent.tokens.last]? = some token ∧ token.isPunctuator ";"
          ∧ extent.span = token.span
  separators : part.isForLoop → (part.separators tokens).length = 2

/-- Only a loop with three parts in its head has separators. -/
theorem separators_of_not_isForLoop {tokens : List Token} {part : Shown}
    (other : part.isForLoop = false)
    : part.separators tokens = [] := by
  cases part with
  | string | template | classMember => rfl
  | statement statement => cases statement <;> first | rfl | cases other

section Ending

variable {tokens : List Token} {part : Shown} {extent : Extent}

theorem of_ending (ending : part.ending? = some extent)
    : part.literal? = none ∧ part.empty? = none ∧ part.isForLoop = false
      ∧ ∀ tokens, part.separators tokens = [] := by
  cases part with
  | string | template => cases ending
  | statement statement =>
      cases statement <;> first | exact ⟨rfl, rfl, rfl, fun _ => rfl⟩ | cases ending
  | classMember member =>
      cases member <;> first | exact ⟨rfl, rfl, rfl, fun _ => rfl⟩ | cases ending

theorem of_literal {key : TokenKind × Span} (literal : part.literal? = some key)
    : part.ending? = none ∧ part.empty? = none ∧ part.isForLoop = false
      ∧ ∀ tokens, part.semicolons tokens = [] := by
  cases part with
  | string | template => exact ⟨rfl, rfl, rfl, fun _ => rfl⟩
  | statement | classMember => cases literal

theorem of_empty (empty : part.empty? = some extent)
    : part.literal? = none ∧ part.ending? = none ∧ part.isForLoop = false
      ∧ ∀ tokens, part.semicolons tokens = [extent.tokens.last] := by
  cases part with
  | string | template => cases empty
  | statement statement =>
      cases statement
        <;> first | cases empty; exact ⟨rfl, rfl, rfl, fun _ => rfl⟩ | cases empty
  | classMember member =>
      cases member <;> first | cases empty; exact ⟨rfl, rfl, rfl, fun _ => rfl⟩ | cases empty

theorem semicolons_of_ending (ending : part.ending? = some extent)
    : part.semicolons tokens
      = if isSemicolonAt tokens extent.tokens.last then [extent.tokens.last] else [] := by
  obtain ⟨-, empty, -, separators⟩ := of_ending ending
  rw [semicolons, ending, empty, separators, List.append_nil]
  cases known : isSemicolonAt tokens extent.tokens.last <;> simp [known]

theorem Grounded.of_ends (ending : part.ending? = some extent)
    (shows : ∃ content stop token, part.Ends tokens extent content stop token)
    : part.Grounded tokens := by
  obtain ⟨literal, empty, loop, -⟩ := of_ending ending
  refine ⟨?_, fun other known => ?_, fun other known => ?_, fun known => ?_⟩
  · rintro value site rfl
    cases ending
  · obtain rfl := Option.some.inj (ending.symm.trans known)
    exact shows
  · rw [empty] at known
    cases known
  · rw [loop] at known
    cases known

/-- A part that neither ends with a semicolon nor has one in it says something of a template at
most. -/
theorem Grounded.of_plain (ending : part.ending? = none) (empty : part.empty? = none)
    (loop : part.isForLoop = false)
    (quoted : ∀ literal site, part = .template literal site → literal.Quoted)
    : part.Grounded tokens :=
  ⟨quoted, by simp [ending], by simp [empty], by simp [loop]⟩

end Ending

end Shown

-----------------------------------------------------------------------------------------
-- Lists of parts
-----------------------------------------------------------------------------------------

/-- The literals among shown parts. -/
def literalTokens (parts : List Shown) : List (TokenKind × Span) :=
  parts.filterMap Shown.literal?

/-- The indices of the last tokens of the constructs among shown parts that may end with
a semicolon. -/
def endIndices (parts : List Shown) : List Nat :=
  parts.filterMap fun part => part.ending?.map fun extent => extent.tokens.last

/-- The indices of the semicolons among shown parts that are statements or class members alone. -/
def emptyIndices (parts : List Shown) : List Nat :=
  parts.filterMap fun part => part.empty?.map fun extent => extent.tokens.last

/-- The indices of the semicolons in the heads of loops among shown parts. -/
def separatorIndices (tokens : List Token) (parts : List Shown) : List Nat :=
  parts.flatMap (Shown.separators tokens)

/-- The indices of the semicolons that belong to shown parts. -/
def ownSemicolons (tokens : List Token) (parts : List Shown) : List Nat :=
  parts.flatMap (Shown.semicolons tokens)

section Lists

variable (tokens : List Token) (part : Shown) (first second : List Shown)

@[simp] theorem literalTokens_nil : literalTokens [] = [] := rfl

@[simp] theorem literalTokens_cons
    : literalTokens (part :: first) = part.literal?.toList ++ literalTokens first := by
  cases found : part.literal? <;> simp [literalTokens, found]

@[simp] theorem literalTokens_append
    : literalTokens (first ++ second) = literalTokens first ++ literalTokens second :=
  List.filterMap_append ..

@[simp] theorem endIndices_nil : endIndices [] = [] := rfl

@[simp] theorem endIndices_cons
    : endIndices (part :: first)
      = (part.ending?.map fun extent => extent.tokens.last).toList ++ endIndices first := by
  cases found : part.ending? <;> simp [endIndices, found]

@[simp] theorem endIndices_append
    : endIndices (first ++ second) = endIndices first ++ endIndices second :=
  List.filterMap_append ..

@[simp] theorem ownSemicolons_nil : ownSemicolons tokens [] = [] := rfl

@[simp] theorem ownSemicolons_cons
    : ownSemicolons tokens (part :: first) = part.semicolons tokens ++ ownSemicolons tokens first :=
  List.flatMap_cons ..

@[simp] theorem ownSemicolons_append
    : ownSemicolons tokens (first ++ second)
      = ownSemicolons tokens first ++ ownSemicolons tokens second :=
  List.flatMap_append ..

/-- Semicolons end constructs, stand alone, or separate the parts in the head of a loop. -/
theorem ownSemicolons_perm
    : (ownSemicolons tokens first).Perm ((endIndices first).filter (isSemicolonAt tokens)
        ++ emptyIndices first ++ separatorIndices tokens first) := by
  have ends : (endIndices first).filter (isSemicolonAt tokens) = first.flatMap fun part =>
      (part.ending?.map (·.tokens.last)).toList.filter (isSemicolonAt tokens) := by
    rw [endIndices, List.filterMap_eq_flatMap_toList, List.filter_flatMap]
  rw [ends, emptyIndices, List.filterMap_eq_flatMap_toList, separatorIndices]
  exact ((List.flatMap_append_perm ..).symm.trans
    ((List.flatMap_append_perm ..).symm.append_right _))

end Lists

/-- Parts that say the same of the tokens as others do. -/
structure SameLedger (parts others : List Shown) : Prop where
  literals : (literalTokens parts).Perm (literalTokens others)
  ends : (endIndices parts).Perm (endIndices others)
  semicolons : ∀ tokens, (ownSemicolons tokens parts).Perm (ownSemicolons tokens others)
  grounded
    : ∀ tokens, (∀ part ∈ parts, part.Grounded tokens) → ∀ part ∈ others, part.Grounded tokens

namespace SameLedger

variable {part other : Shown} {parts others front back : List Shown}

/-- The order of parts does not matter. -/
theorem of_perm (same : parts.Perm others)
    : SameLedger parts others where
  literals := same.filterMap _
  ends := same.filterMap _
  semicolons _ := same.flatMap_right _
  grounded _ grounded part member := grounded part (same.mem_iff.mpr member)

theorem refl (parts : List Shown)
    : SameLedger parts parts :=
  .of_perm (.refl _)

theorem cons (literal : other.literal? = part.literal?) (ending : other.ending? = part.ending?)
    (semicolons : ∀ tokens, other.semicolons tokens = part.semicolons tokens)
    (grounded : ∀ tokens, part.Grounded tokens → other.Grounded tokens)
    (rest : SameLedger parts others)
    : SameLedger (part :: parts) (other :: others) where
  literals := by
    rw [literalTokens_cons, literalTokens_cons, literal]
    exact rest.literals.append_left _
  ends := by
    rw [endIndices_cons, endIndices_cons, ending]
    exact rest.ends.append_left _
  semicolons tokens := by
    rw [ownSemicolons_cons, ownSemicolons_cons, semicolons]
    exact (rest.semicolons tokens).append_left _
  grounded tokens all := by
    obtain ⟨head, tail⟩ := List.forall_mem_cons.mp all
    exact List.forall_mem_cons.mpr ⟨grounded tokens head, rest.grounded tokens tail⟩

theorem append (first : SameLedger parts others) (second : SameLedger front back)
    : SameLedger (parts ++ front) (others ++ back) where
  literals := by
    rw [literalTokens_append, literalTokens_append]
    exact first.literals.append second.literals
  ends := by
    rw [endIndices_append, endIndices_append]
    exact first.ends.append second.ends
  semicolons tokens := by
    rw [ownSemicolons_append, ownSemicolons_append]
    exact (first.semicolons tokens).append (second.semicolons tokens)
  grounded tokens all := by
    obtain ⟨left, right⟩ := List.forall_mem_append.mp all
    exact List.forall_mem_append.mpr ⟨first.grounded tokens left, second.grounded tokens right⟩

/-- Nor does the site of a string. -/
theorem string (span : Span) (site site' : LiteralSite)
    : SameLedger [.string span site] [.string span site'] :=
  .cons rfl rfl (fun _ => rfl) (fun _ _ => .of_plain rfl rfl rfl (by simp)) (.refl [])

/-- Nor that of a template. -/
theorem template (literal : TemplateLiteral) (site site' : LiteralSite)
    : SameLedger (literal.shown site) (literal.shown site') := by
  obtain ⟨span, quasis, substitutions, isTagged⟩ := literal
  rw [TemplateLiteral.shown, TemplateLiteral.shown]
  refine .cons rfl rfl (fun _ => rfl) (fun tokens grounded => ?_) (.refl _)
  refine .of_plain rfl rfl rfl fun literal site equal => ?_
  obtain ⟨rfl, rfl⟩ := Shown.template.inj equal
  exact grounded.template _ _ rfl

end SameLedger

section Flat

theorem shownExpressions_eq (values : List Expression)
    : shownExpressions values = values.flatMap Expression.shown := by
  induction values with
  | nil => rfl
  | cons value others ih => rw [shownExpressions, ih, List.flatMap_cons]

theorem shownOptional_eq (value : Option Expression)
    : shownOptional value = (value.map Expression.shown).getD [] := by
  cases value <;> rfl

theorem shownProperties_eq (properties : List Property)
    : shownProperties properties = properties.flatMap Property.shown := by
  induction properties with
  | nil => rfl
  | cons property others ih => rw [shownProperties, ih, List.flatMap_cons]

theorem shownElements_eq (elements : List (Option Expression))
    : shownElements elements = elements.flatMap shownOptional := by
  induction elements with
  | nil => rfl
  | cons element others ih => rw [shownElements, ih, List.flatMap_cons]

theorem shownStatements_eq (enclosing : Enclosing) (body : List Statement)
    : shownStatements enclosing body = body.flatMap (Statement.shown enclosing) := by
  induction body with
  | nil => rfl
  | cons first others ih => rw [shownStatements, ih, List.flatMap_cons]

theorem shownMembers_eq (enclosing : Enclosing) (members : List ClassMember)
    : shownMembers enclosing members
      = members.flatMap fun member => .classMember member enclosing :: member.shown := by
  induction members with
  | nil => rfl
  | cons member others ih => rw [shownMembers, ih, List.flatMap_cons, List.cons_append]

theorem shownCases_eq (cases : List SwitchCase)
    : shownCases cases
      = cases.flatMap fun clause =>
          shownOptional clause.test ++ shownStatements .switchCase clause.body := by
  induction cases with
  | nil => rfl
  | cons clause others ih =>
      rw [List.flatMap_cons, ← ih]
      obtain ⟨test, body⟩ := clause
      rw [shownCases]

theorem shownDeclarators_eq (declarators : List Declarator)
    : shownDeclarators declarators
      = declarators.flatMap fun entry => entry.target.shown ++ shownOptional entry.init := by
  induction declarators with
  | nil => rfl
  | cons entry others ih =>
      obtain ⟨target, init⟩ := entry
      rw [shownDeclarators, ih, List.flatMap_cons]

end Flat

/-- A literal that stands alone as a statement is shown at another site, and nothing else is
different there. -/
theorem Statement.shown_expression (value : Expression) (placement : Placement)
    (enclosing : Enclosing)
    : ∃ parts, (Statement.expression value placement).shown enclosing
          = .statement (.expression value placement) enclosing :: parts
        ∧ SameLedger value.shown parts := by
  cases value
  case string span => exact ⟨_, by rw [Statement.shown], .string ..⟩
  case template literal span => exact ⟨_, by rw [Statement.shown], .template ..⟩
  all_goals exact ⟨Expression.shown _, by simp only [Statement.shown], .refl _⟩

end ScriptStyle
