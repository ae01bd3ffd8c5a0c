import ScriptStyle.Proofs.Tree.Ledger

/-!
The nodes of a tree and what each of them consists of. A literal is shown at the site that the
node holding it determines: as a property name, in a module clause, or as a whole statement.
-/

namespace ScriptStyle

/-- Whether a part is a literal at another site than that of expressions in general. -/
def Shown.isSited : Shown → Bool
  | .string _ site | .template _ site => site != .expression
  | .statement _ _ | .classMember _ _ => false

/-- A node of a tree. -/
inductive Node where
  | expression (value : Expression)
  | statement (value : Statement)
  | block (value : Block)
  | declarator (value : Declarator)
  | forHead (value : ForHead)
  | switchCase (value : SwitchCase)
  | catchClause (value : CatchClause)
  | function (value : FunctionDef)
  | class (value : ClassDef)
  | classMember (value : ClassMember)
  | propertyKey (value : PropertyKey)
  | template (value : TemplateLiteral)
  | property (value : Property)
  | specifier (value : Specifier)
  | importAttribute (value : ImportAttribute)
  | moduleName (value : ModuleName)
  /-- The string that names a module, or the value of an attribute. -/
  | moduleSource (span : Span)

namespace Node

/-- What an expression consists of. -/
def ofExpression : Expression → List Node
  | .identifier _ | .atom _ | .string _ => []
  | .template literal _ => [template literal]
  | .taggedTemplate tag literal _ => [expression tag, template literal]
  | .array elements _ => elements.filterMap (·.map expression)
  | .object properties _ => properties.map property
  | .function definition _ => [function definition]
  | .arrowBlock params body _ _ => params.map expression ++ [block body]
  | .arrowValue params body _ _ => params.map expression ++ [expression body]
  | .class definition _ => [.class definition]
  | .unary operand _ | .update operand _ | .spread operand _ | .paren operand _ =>
      [expression operand]
  | .binary left right _ | .assign left right _ => [expression left, expression right]
  | .conditional test consequent alternate _ =>
      [expression test, expression consequent, expression alternate]
  | .call callee arguments _ | .construct callee arguments _ =>
      expression callee :: arguments.map expression
  | .member object _ _ => [expression object]
  | .index object key _ => [expression object, expression key]
  | .sequence items _ | .importCall items _ => items.map expression
  | .yield operand _ => operand.toList.map expression

/-- What a statement consists of. -/
def ofStatement : Statement → List Node
  | .expression value _ | .throwing value _ | .exportDefaultValue value _ => [expression value]
  | .declaration _ declarators _ => declarators.map declarator
  | .function definition _ => [function definition]
  | .class definition _ => [.class definition]
  | .block body _ => [block body]
  | .empty _ | .debugger _ | .breaking _ | .continuing _ => []
  | .conditional test consequent alternate _ =>
      [expression test, statement consequent] ++ alternate.toList.map statement
  | .forLoop init test update body _ =>
      init.toList.map forHead ++ test.toList.map expression ++ update.toList.map expression
        ++ [statement body]
  | .forEach left right body _ => [forHead left, expression right, statement body]
  | .whileLoop test body _ | .doWhile body test _ => [expression test, statement body]
  | .returning value _ => value.toList.map expression
  | .labeled body _ => [statement body]
  | .switch discriminant cases _ => expression discriminant :: cases.map switchCase
  | .tryCatch body handler finalizer _ =>
      block body :: (handler.toList.map catchClause ++ finalizer.toList.map block)
  | .withObject object body _ => [expression object, statement body]
  | .importFrom specifiers source attributes _ =>
      specifiers.map specifier ++ [moduleSource source] ++ attributes.map importAttribute
  | .exportAll exported source attributes _ =>
      exported.toList.map moduleName ++ [moduleSource source] ++ attributes.map importAttribute
  | .exportList specifiers source attributes _ =>
      specifiers.map specifier ++ source.toList.map moduleSource ++ attributes.map importAttribute
  | .exportDeclaration declaration _ | .exportDefaultDeclaration declaration _ =>
      [statement declaration]

/-- What a node consists of. -/
def children : Node → List Node
  | expression value => ofExpression value
  | statement value => ofStatement value
  | block ⟨body, _⟩ => body.map statement
  | declarator ⟨target, init⟩ => expression target :: init.toList.map expression
  | forHead (.declaration _ declarators) => declarators.map declarator
  | forHead (.value value) => [expression value]
  | switchCase ⟨test, body⟩ => test.toList.map expression ++ body.map statement
  | catchClause ⟨param, body⟩ => param.toList.map expression ++ [block body]
  | function ⟨params, body, _, _⟩ => params.map expression ++ [block body]
  | .class ⟨superClass, members, _⟩ => superClass.toList.map expression ++ members.map classMember
  | classMember (.field key value _ _) => propertyKey key :: value.toList.map expression
  | classMember (.method key definition _ _) => [propertyKey key, function definition]
  | classMember (.staticBlock body _) => [block body]
  | classMember (.empty _) => []
  | propertyKey (.computed value) => [expression value]
  | propertyKey _ => []
  | template ⟨_, _, substitutions, _⟩ => substitutions.map expression
  | property (.keyValue key value) => [propertyKey key, expression value]
  | property (.shorthand _ default) => default.toList.map expression
  | property (.method key definition) => [propertyKey key, function definition]
  | property (.spread value) => [expression value]
  | specifier ⟨name, givenName⟩ => moduleName name :: givenName.toList.map moduleName
  | importAttribute ⟨key, value⟩ => [moduleName key, moduleSource value]
  | moduleName _ | moduleSource _ => []

/-- A node that another consists of, directly or through others, or that node itself. -/
inductive Within : Node → Node → Prop
  | refl (node : Node) : Within node node
  | step {inner child outer : Node} (direct : child ∈ outer.children) (deeper : Within inner child)
    : Within inner outer

/-- The literal that a node is or holds, at a site that the node determines. -/
inductive Determines : Node → Shown → Prop
  | propertyKey (span : Span)
    : Determines (.propertyKey (.string span)) (.string span .propertyKey)
  | moduleName (span : Span) : Determines (.moduleName (.string span)) (.string span .moduleName)
  | moduleSource (span : Span) : Determines (.moduleSource span) (.string span .moduleSource)
  | string (span : Span) (placement : Placement)
    : Determines (.statement (.expression (.string span) placement))
        (.string span (.statement placement.isDirective placement.isBodyLevel))
  | template (literal : TemplateLiteral) (span : Span) (placement : Placement)
    : Determines (.statement (.expression (.template literal span) placement))
        (.template literal (.statement placement.isDirective placement.isBodyLevel))

/-- The shown parts of a node. Those of statements and class members depend on where they stand. -/
inductive Shows : Node → List Shown → Prop
  | expression (value : Expression) : Shows (.expression value) value.shown
  | statement (value : Statement) (enclosing : Enclosing)
    : Shows (.statement value) (value.shown enclosing)
  | block (value : Block) : Shows (.block value) value.shown
  | declarator (value : Declarator)
    : Shows (.declarator value) (value.target.shown ++ shownOptional value.init)
  | forHead (value : ForHead) : Shows (.forHead value) value.shown
  | switchCase (value : SwitchCase)
    : Shows (.switchCase value)
        (shownOptional value.test ++ shownStatements .switchCase value.body)
  | catchClause (value : CatchClause) : Shows (.catchClause value) (shownHandler (some value))
  | function (value : FunctionDef) : Shows (.function value) value.shown
  | class (value : ClassDef) : Shows (.class value) value.shown
  | classMember (value : ClassMember) (enclosing : Enclosing)
    : Shows (.classMember value) (.classMember value enclosing :: value.shown)
  | propertyKey (value : PropertyKey) : Shows (.propertyKey value) value.shown
  | template (value : TemplateLiteral) : Shows (.template value) (value.shown .expression)
  | property (value : Property) : Shows (.property value) value.shown
  | specifier (value : Specifier) : Shows (.specifier value) value.shown
  | importAttribute (value : ImportAttribute) : Shows (.importAttribute value) value.shown
  | moduleName (value : ModuleName) : Shows (.moduleName value) value.shown
  | moduleSource (span : Span) : Shows (.moduleSource span) [.string span .moduleSource]

/-- Parts that are shown of nodes one after another. -/
inductive Splits : List Node → List Shown → Prop
  | nil : Splits [] []
  | cons {node : Node} {nodes : List Node} {piece parts : List Shown} (first : node.Shows piece)
    (rest : Splits nodes parts) : Splits (node :: nodes) (piece ++ parts)

namespace Splits

variable {node child : Node} {nodes others : List Node} {piece parts more : List Shown}

theorem one (shows : node.Shows parts)
    : Splits [node] parts := by
  simpa using cons shows nil

theorem append (first : Splits nodes parts) (second : Splits others more)
    : Splits (nodes ++ others) (parts ++ more) := by
  induction first with
  | nil => exact second
  | cons shows rest ih => simpa using cons shows ih

/-- Items that are nodes are shown one after another. -/
theorem map {α : Type} {make : α → Node} {shown : α → List Shown}
    (each : ∀ item, (make item).Shows (shown item)) (items : List α)
    : Splits (items.map make) (items.flatMap shown) := by
  induction items with
  | nil => exact nil
  | cons item items ih => exact cons (each item) ih

/-- What is shown of some nodes is shown of one of them. -/
theorem exists_of_mem (splits : Splits nodes parts) {part : Shown} (member : part ∈ parts)
    : ∃ child ∈ nodes, ∃ piece, child.Shows piece ∧ part ∈ piece := by
  induction splits with
  | nil => cases member
  | cons shows rest ih =>
      rcases List.mem_append.mp member with here | later
      · exact ⟨_, List.mem_cons_self .., _, shows, here⟩
      · obtain ⟨child, among, found⟩ := ih later
        exact ⟨child, List.mem_cons_of_mem _ among, found⟩

/-- Something is shown of each of some nodes. -/
theorem exists_of_child (splits : Splits nodes parts) (among : child ∈ nodes)
    : ∃ piece, child.Shows piece ∧ piece ⊆ parts := by
  induction splits with
  | nil => cases among
  | cons shows rest ih =>
      rcases List.mem_cons.mp among with rfl | later
      · exact ⟨_, shows, List.subset_append_left ..⟩
      · obtain ⟨piece, shows, sub⟩ := ih later
        exact ⟨piece, shows, List.Subset.trans sub (List.subset_append_right ..)⟩

end Splits

-----------------------------------------------------------------------------------------
-- Lists of nodes
-----------------------------------------------------------------------------------------

theorem splits_expressions (values : List Expression)
    : Splits (values.map expression) (shownExpressions values) := by
  rw [shownExpressions_eq]
  exact .map .expression values

theorem splits_optional (value : Option Expression)
    : Splits (value.toList.map expression) (shownOptional value) := by
  cases value with
  | none => exact .nil
  | some value => exact .one (.expression value)

theorem splits_elements (elements : List (Option Expression))
    : Splits (elements.filterMap (·.map expression)) (shownElements elements) := by
  induction elements with
  | nil => exact .nil
  | cons element others ih =>
      rw [shownElements]
      cases element with
      | none => exact ih
      | some value => exact .cons (.expression value) ih

theorem splits_properties (properties : List Property)
    : Splits (properties.map property) (shownProperties properties) := by
  rw [shownProperties_eq]
  exact .map .property properties

theorem splits_declarators (declarators : List Declarator)
    : Splits (declarators.map declarator) (shownDeclarators declarators) := by
  rw [shownDeclarators_eq]
  exact .map .declarator declarators

theorem splits_members (enclosing : Enclosing) (members : List ClassMember)
    : Splits (members.map classMember) (shownMembers enclosing members) := by
  induction members with
  | nil => exact .nil
  | cons member others ih =>
      rw [shownMembers]
      exact .cons (.classMember member enclosing) ih

theorem splits_statements (enclosing : Enclosing) (body : List Statement)
    : Splits (body.map statement) (shownStatements enclosing body) := by
  induction body with
  | nil =>
      rw [shownStatements]
      exact .nil
  | cons first others ih =>
      rw [shownStatements]
      exact .cons (.statement first enclosing) ih

theorem splits_cases (cases : List SwitchCase)
    : Splits (cases.map switchCase) (shownCases cases) := by
  induction cases with
  | nil => exact .nil
  | cons clause others ih =>
      obtain ⟨test, body⟩ := clause
      rw [shownCases]
      exact .cons (.switchCase ⟨test, body⟩) ih

-----------------------------------------------------------------------------------------
-- What a node adds to what its children show
-----------------------------------------------------------------------------------------

/-- The literals at special sites that are shown of a node are those that it determines, and
those that are shown of its children. -/
def Parts (node : Node) (parts : List Shown) : Prop :=
  ∃ own rest, Splits node.children rest ∧ parts.filter Shown.isSited = own ++ rest.filter Shown.isSited
    ∧ ∀ part ∈ own, node.Determines part

namespace Parts

variable {node : Node} {parts : List Shown} {part : Shown}

theorem of_splits (splits : Splits node.children parts)
    : node.Parts parts :=
  ⟨[], parts, splits, rfl, by simp⟩

/-- A part at no special site adds nothing. -/
theorem cons (unsited : part.isSited = false) (splits : Splits node.children parts)
    : node.Parts (part :: parts) :=
  ⟨[], parts, splits, List.filter_cons_of_neg (by simp [unsited]), by simp⟩

/-- A literal that a node is, is all that is shown of it. -/
theorem literal (childless : node.children = []) (determines : node.Determines part)
    (sited : part.isSited)
    : node.Parts [part] :=
  ⟨[part], [], childless ▸ .nil, by simp [sited], by simpa using determines⟩

end Parts

theorem parts_expression (value : Expression)
    : (expression value).Parts value.shown := by
  cases value <;> rw [Expression.shown]
  case string => exact .cons rfl .nil
  case identifier | atom => exact .of_splits .nil
  case template literal _ => exact .of_splits (.one (.template literal))
  case taggedTemplate tag literal _ =>
    exact .of_splits ((Splits.one (.expression tag)).append (.one (.template literal)))
  case array elements _ => exact .of_splits (splits_elements elements)
  case object properties _ => exact .of_splits (splits_properties properties)
  case function definition _ => exact .of_splits (.one (.function definition))
  case arrowBlock params body _ _ =>
    exact .of_splits ((splits_expressions params).append (.one (.block body)))
  case arrowValue params body _ _ =>
    exact .of_splits ((splits_expressions params).append (.one (.expression body)))
  case «class» definition _ => exact .of_splits (.one (.class definition))
  case unary operand _ | update operand _ | spread operand _ | paren operand _ =>
    exact .of_splits (.one (.expression operand))
  case binary left right _ | assign left right _ =>
    exact .of_splits ((Splits.one (.expression left)).append (.one (.expression right)))
  case conditional test consequent alternate _ =>
    exact .of_splits (((Splits.one (.expression test)).append (.one (.expression consequent))).append
      (.one (.expression alternate)))
  case call callee arguments _ | construct callee arguments _ =>
    exact .of_splits (.cons (.expression callee) (splits_expressions arguments))
  case member object _ _ => exact .of_splits (.one (.expression object))
  case index object key _ =>
    exact .of_splits ((Splits.one (.expression object)).append (.one (.expression key)))
  case sequence items _ | importCall items _ => exact .of_splits (splits_expressions items)
  case yield operand _ => exact .of_splits (splits_optional operand)

/-- A literal that is a whole statement is shown at the site of that statement. -/
theorem parts_expressionStatement (value : Expression) (placement : Placement)
    (enclosing : Enclosing)
    : (statement (.expression value placement)).Parts
        ((Statement.expression value placement).shown enclosing) := by
  cases value
  case string span =>
    rw [Statement.shown]
    refine ⟨[_], [.string span .expression], .one (.expression (.string span)), rfl, fun part member => ?_⟩
    obtain rfl := List.mem_singleton.mp member
    exact .string span placement
  case template literal span =>
    obtain ⟨whole, quasis, substitutions, isTagged⟩ := literal
    rw [Statement.shown, TemplateLiteral.shown]
    refine ⟨[.template ⟨whole, quasis, substitutions, isTagged⟩
        (.statement placement.isDirective placement.isBodyLevel)],
      _, .one (.expression (.template ⟨whole, quasis, substitutions, isTagged⟩ span)), ?_,
      fun part member => ?_⟩
    · rw [Expression.shown, TemplateLiteral.shown]
      rfl
    · obtain rfl := List.mem_singleton.mp member
      exact .template _ span placement
  all_goals
    simp only [Statement.shown]
    exact .cons rfl (.one (.expression _))

theorem parts_statement (value : Statement) (enclosing : Enclosing)
    : (statement value).Parts (value.shown enclosing) := by
  cases value
  case expression value placement => exact parts_expressionStatement value placement enclosing
  all_goals rw [Statement.shown]
  case declaration kind declarators _ => exact .cons rfl (splits_declarators declarators)
  case function definition _ => exact .cons rfl (.one (.function definition))
  case «class» definition _ => exact .cons rfl (.one (.class definition))
  case block body _ => exact .cons rfl (.one (.block body))
  case empty | debugger | breaking | continuing => exact .cons rfl .nil
  case conditional test consequent alternate _ =>
    refine .cons rfl (((Splits.one (.expression test)).append
      (.one (.statement consequent .statement))).append ?_)
    cases alternate with
    | none => exact .nil
    | some alternate => exact .one (.statement alternate .statement)
  case forLoop init test update body _ =>
    refine .cons rfl ((((?_ : Splits _ _).append (splits_optional test)).append
      (splits_optional update)).append (.one (.statement body .statement)))
    cases init with
    | none => exact .nil
    | some head => exact .one (.forHead head)
  case forEach left right body _ =>
    exact .cons rfl (((Splits.one (.forHead left)).append (.one (.expression right))).append
      (.one (.statement body .statement)))
  case whileLoop test body _ | doWhile body test _ =>
    exact .cons rfl ((Splits.one (.expression test)).append
      (.one (.statement body .statement)))
  case returning value _ => exact .cons rfl (splits_optional value)
  case throwing value _ | exportDefaultValue value _ => exact .cons rfl (.one (.expression value))
  case labeled body _ => exact .cons rfl (.one (.statement body .statement))
  case switch discriminant cases _ =>
    exact .cons rfl (.cons (.expression discriminant) (splits_cases cases))
  case tryCatch body handler finalizer _ =>
    rw [List.append_assoc]
    refine .cons rfl (.cons (.block body) (.append ?_ ?_))
    · cases handler with
      | none => exact .nil
      | some clause => exact .one (.catchClause clause)
    · cases finalizer with
      | none => exact .nil
      | some block => exact .one (.block block)
  case withObject object body _ =>
    exact .cons rfl ((Splits.one (.expression object)).append
      (.one (.statement body .statement)))
  case importFrom specifiers source attributes _ =>
    exact .cons rfl (((Splits.map .specifier specifiers).append (.one (.moduleSource source))).append
      (.map .importAttribute attributes))
  case exportAll exported source attributes _ =>
    refine .cons rfl (((?_ : Splits _ _).append (.one (.moduleSource source))).append
      (.map .importAttribute attributes))
    cases exported with
    | none => exact .nil
    | some name => exact .one (.moduleName name)
  case exportList specifiers source attributes _ =>
    refine .cons rfl (((Splits.map .specifier specifiers).append ?_).append
      (.map .importAttribute attributes))
    cases source with
    | none => exact .nil
    | some source => exact .one (.moduleSource source)
  case exportDeclaration declaration _ | exportDefaultDeclaration declaration _ =>
    exact .cons rfl (.one (.statement declaration .statement))

/-- Whatever is shown of a node at a special site is a literal that it determines, or is shown
of a child. -/
theorem Shows.parts {node : Node} {parts : List Shown} (shows : node.Shows parts)
    : node.Parts parts := by
  cases shows with
  | expression value => exact parts_expression value
  | statement value enclosing => exact parts_statement value enclosing
  | block value =>
      obtain ⟨body, span⟩ := value
      rw [Block.shown]
      exact .of_splits (splits_statements _ body)
  | declarator value =>
      obtain ⟨target, init⟩ := value
      exact .of_splits (.cons (.expression target) (splits_optional init))
  | forHead value =>
      cases value with
      | declaration kind declarators =>
          rw [ForHead.shown]
          exact .of_splits (splits_declarators declarators)
      | value value =>
          rw [ForHead.shown]
          exact .of_splits (.one (.expression value))
  | switchCase value =>
      obtain ⟨test, body⟩ := value
      exact .of_splits ((splits_optional test).append (splits_statements _ body))
  | catchClause value =>
      obtain ⟨param, body⟩ := value
      rw [shownHandler]
      exact .of_splits ((splits_optional param).append (.one (.block body)))
  | function value =>
      obtain ⟨params, body, isAsync, isGenerator⟩ := value
      rw [FunctionDef.shown]
      exact .of_splits ((splits_expressions params).append (.one (.block body)))
  | «class» value =>
      obtain ⟨superClass, members, span⟩ := value
      rw [ClassDef.shown]
      exact .of_splits ((splits_optional superClass).append (splits_members _ members))
  | classMember value enclosing =>
      cases value <;> rw [ClassMember.shown]
      case field key value _ _ =>
        exact .cons rfl (.cons (.propertyKey key) (splits_optional value))
      case method key definition _ _ =>
        exact .cons rfl ((Splits.one (.propertyKey key)).append (.one (.function definition)))
      case staticBlock body _ => exact .cons rfl (.one (.block body))
      case empty => exact .cons rfl .nil
  | propertyKey value =>
      cases value <;> rw [PropertyKey.shown]
      case string span => exact .literal rfl (.propertyKey span) rfl
      case computed value => exact .of_splits (.one (.expression value))
      all_goals exact .of_splits .nil
  | template value =>
      obtain ⟨span, quasis, substitutions, isTagged⟩ := value
      rw [TemplateLiteral.shown]
      exact .cons rfl (splits_expressions substitutions)
  | property value =>
      cases value <;> rw [Property.shown]
      case keyValue key value =>
        exact .of_splits ((Splits.one (.propertyKey key)).append (.one (.expression value)))
      case shorthand default => exact .of_splits (splits_optional default)
      case method key definition =>
        exact .of_splits ((Splits.one (.propertyKey key)).append (.one (.function definition)))
      case spread value => exact .of_splits (.one (.expression value))
  | specifier value =>
      obtain ⟨name, givenName⟩ := value
      refine .of_splits (.cons (.moduleName name) ?_)
      cases givenName with
      | none => exact .nil
      | some other => exact .one (.moduleName other)
  | importAttribute value =>
      obtain ⟨key, value⟩ := value
      exact .of_splits ((Splits.one (.moduleName key)).append (.one (.moduleSource value)))
  | moduleName value =>
      cases value with
      | identifier span => exact .of_splits .nil
      | string span => exact .literal rfl (.moduleName span) rfl
  | moduleSource span => exact .literal rfl (.moduleSource span) rfl

-----------------------------------------------------------------------------------------
-- Nodes within nodes
-----------------------------------------------------------------------------------------

-- Each child is made of a field, of an element of a list, or of what is there of an option.

theorem sizeOf_ofExpression (value : Expression)
    : ∀ child ∈ ofExpression value, sizeOf child < 1 + sizeOf value := by
  cases value
  case array elements _ =>
    intro child direct
    obtain ⟨element, among, made⟩ := List.mem_filterMap.mp direct
    obtain ⟨value, rfl, rfl⟩ := Option.map_eq_some_iff.mp made
    have smaller := List.sizeOf_lt_of_mem among
    simp at smaller ⊢
    omega
  all_goals
    simp only [ofExpression, List.forall_mem_append, List.forall_mem_cons, List.forall_mem_map,
      List.not_mem_nil, IsEmpty.forall_iff, implies_true, and_true, Option.mem_toList]
    and_intros
  all_goals
    first
    | (intro item among
       first
       | have smaller := List.sizeOf_lt_of_mem among
       | subst among
       simp at *
       omega)
    | (simp; omega)

theorem sizeOf_ofStatement (value : Statement)
    : ∀ child ∈ ofStatement value, sizeOf child < 1 + sizeOf value := by
  cases value
  all_goals
    simp only [ofStatement, List.forall_mem_append, List.forall_mem_cons, List.forall_mem_map,
      List.not_mem_nil, IsEmpty.forall_iff, implies_true, and_true, Option.mem_toList]
    and_intros
  all_goals
    first
    | (intro item among
       first
       | have smaller := List.sizeOf_lt_of_mem among
       | subst among
       simp at *
       omega)
    | (simp; omega)

theorem sizeOf_children (node : Node)
    : ∀ child ∈ node.children, sizeOf child < sizeOf node := by
  fun_cases children node
  case case1 value => exact sizeOf_ofExpression value
  case case2 value => exact sizeOf_ofStatement value
  all_goals
    simp only [List.forall_mem_append, List.forall_mem_cons, List.forall_mem_map,
      List.not_mem_nil, IsEmpty.forall_iff, implies_true, and_true, Option.mem_toList]
    and_intros
  all_goals
    first
    | (intro item among
       first
       | have smaller := List.sizeOf_lt_of_mem among
       | subst among
       simp at *
       omega)
    | (simp; omega)
    | simp

/-- What is shown of an inner node at special sites is shown of the outer one too. -/
theorem Within.exists_shows {inner outer : Node} {parts : List Shown}
    (within : inner.Within outer) (shows : outer.Shows parts)
    : ∃ piece, inner.Shows piece ∧ ∀ part ∈ piece, part.isSited → part ∈ parts := by
  induction within generalizing parts with
  | refl => exact ⟨parts, shows, fun _ member _ => member⟩
  | step direct deeper ih =>
      obtain ⟨own, rest, splits, same, -⟩ := shows.parts
      obtain ⟨piece, shows, among⟩ := splits.exists_of_child direct
      obtain ⟨inmost, shows, within⟩ := ih shows
      refine ⟨inmost, shows, fun part member sited => ?_⟩
      have here : part ∈ rest.filter Shown.isSited :=
        List.mem_filter.mpr ⟨among (within part member sited), sited⟩
      have found : part ∈ parts.filter Shown.isSited := same ▸ List.mem_append_right _ here
      exact (List.mem_filter.mp found).1

/-- What is shown at a special site is a literal that some node within determines. -/
theorem Shows.exists_determines {node : Node} {parts : List Shown} {part : Shown}
    (shows : node.Shows parts) (member : part ∈ parts) (sited : part.isSited)
    : ∃ inner : Node, inner.Within node ∧ inner.Determines part := by
  obtain ⟨own, rest, splits, same, determines⟩ := shows.parts
  have found : part ∈ own ++ rest.filter Shown.isSited :=
    same ▸ List.mem_filter.mpr ⟨member, sited⟩
  rcases List.mem_append.mp found with here | later
  · exact ⟨node, .refl node, determines part here⟩
  · obtain ⟨child, direct, piece, shows, inside⟩ :=
      splits.exists_of_mem (List.mem_filter.mp later).1
    obtain ⟨inner, within, determines⟩ := exists_determines shows inside sited
    exact ⟨inner, .step direct within, determines⟩
termination_by sizeOf node
decreasing_by exact sizeOf_children node child direct

end Node

/-- A node of a program. -/
def Program.Contains (program : Program) (node : Node) : Prop :=
  ∃ statement ∈ program.body, node.Within (.statement statement)

end ScriptStyle
