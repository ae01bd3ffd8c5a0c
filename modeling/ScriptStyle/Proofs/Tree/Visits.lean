import Mathlib.Data.List.Infix
import ScriptStyle.Proofs.Tree.Nodes

/-!
The walk over a tree, one node after another. Each node is visited with what the nodes around it
hand down: what encloses a statement or class member, and the site of a literal. What is shown of
a tree is what its visits show on their own.
-/

namespace ScriptStyle

/-- A node with what the walk hands to it. -/
structure Visit where
  node : Node
  /-- What a statement or class member is an element of. -/
  enclosing : Enclosing
  /-- Where a literal stands. -/
  site : LiteralSite

namespace Visit

/-- A visit to a node to which nothing in particular is handed. -/
def plain (node : Node) : Visit :=
  ⟨node, .statement, .expression⟩

/-- Visits to statements one after another. -/
def ofStatements (enclosing : Enclosing) (body : List Statement) : List Visit :=
  body.map fun statement => ⟨.statement statement, enclosing, .expression⟩

/-- The visits to what a node consists of. -/
def children : Visit → List Visit
  | ⟨.block ⟨body, span⟩, _, _⟩ => ofStatements (.block span) body
  | ⟨.switchCase ⟨test, body⟩, _, _⟩ =>
      test.toList.map (fun value => plain (.expression value)) ++ ofStatements .switchCase body
  | ⟨.class ⟨superClass, members, span⟩, _, _⟩ =>
      superClass.toList.map (fun value => plain (.expression value))
        ++ members.map fun member => ⟨.classMember member, .classBody span, .expression⟩
  | ⟨.statement (.expression value placement), _, _⟩ =>
      [⟨.expression value, .statement,
        .statement placement.isDirective placement.isBodyLevel⟩]
  | ⟨.expression (.template literal _), _, site⟩ => [⟨.template literal, .statement, site⟩]
  | ⟨node, _, _⟩ => node.children.map plain

/-- What a visit shows apart from the visits to what its node consists of. -/
def own : Visit → List Shown
  | ⟨.statement value, enclosing, _⟩ => [.statement value enclosing]
  | ⟨.classMember value, enclosing, _⟩ => [.classMember value enclosing]
  | ⟨.expression (.string span), _, site⟩ => [.string span site]
  | ⟨.template value, _, site⟩ => [.template value site]
  | ⟨.propertyKey (.string span), _, _⟩ => [.string span .propertyKey]
  | ⟨.moduleName (.string span), _, _⟩ => [.string span .moduleName]
  | ⟨.moduleSource span, _, _⟩ => [.string span .moduleSource]
  | _ => []

/-- What the walk shows of a node. -/
def shown : Visit → List Shown
  | ⟨.expression (.string span), _, site⟩ => [.string span site]
  | ⟨.expression (.template literal _), _, site⟩ => literal.shown site
  | ⟨.expression value, _, _⟩ => value.shown
  | ⟨.statement value, enclosing, _⟩ => value.shown enclosing
  | ⟨.block value, _, _⟩ => value.shown
  | ⟨.declarator value, _, _⟩ => value.target.shown ++ shownOptional value.init
  | ⟨.forHead value, _, _⟩ => value.shown
  | ⟨.switchCase value, _, _⟩ =>
      shownOptional value.test ++ shownStatements .switchCase value.body
  | ⟨.catchClause value, _, _⟩ => shownHandler (some value)
  | ⟨.function value, _, _⟩ => value.shown
  | ⟨.class value, _, _⟩ => value.shown
  | ⟨.classMember value, enclosing, _⟩ => .classMember value enclosing :: value.shown
  | ⟨.propertyKey value, _, _⟩ => value.shown
  | ⟨.template value, _, site⟩ => value.shown site
  | ⟨.property value, _, _⟩ => value.shown
  | ⟨.specifier value, _, _⟩ => value.shown
  | ⟨.importAttribute value, _, _⟩ => value.shown
  | ⟨.moduleName value, _, _⟩ => value.shown
  | ⟨.moduleSource span, _, _⟩ => [.string span .moduleSource]

-----------------------------------------------------------------------------------------
-- Lists of visits
-----------------------------------------------------------------------------------------

@[simp] theorem plain_expression_shown (value : Expression)
    : (plain (.expression value)).shown = value.shown := by
  cases value <;> simp only [plain, shown, Expression.shown]

@[simp] theorem flatMap_optional_shown (value : Option Expression)
    : value.toList.flatMap Expression.shown = shownOptional value := by
  cases value <;> simp [shownOptional]

@[simp] theorem flatMap_elements_shown (elements : List (Option Expression))
    : (elements.filterMap (·.map Node.expression)).flatMap (fun node => (plain node).shown)
      = shownElements elements := by
  induction elements with
  | nil => rfl
  | cons element others ih =>
      rw [shownElements, ← ih]
      cases element with
      | none => rfl
      | some value => simp [shownOptional]

@[simp] theorem flatMap_ofStatements_shown (enclosing : Enclosing) (body : List Statement)
    : (ofStatements enclosing body).flatMap shown = shownStatements enclosing body := by
  rw [ofStatements, List.flatMap_map, shownStatements_eq]
  rfl

theorem flatMap_members_shown (span : Span) (members : List ClassMember)
    : (members.map fun member =>
          (⟨.classMember member, .classBody span, .expression⟩ : Visit)).flatMap shown
      = shownMembers (.classBody span) members := by
  rw [List.flatMap_map, shownMembers_eq]
  rfl

@[simp] theorem flatMap_cases_shown (cases : List SwitchCase)
    : cases.flatMap (fun clause => shownOptional clause.test
        ++ shownStatements .switchCase clause.body)
      = shownCases cases :=
  (shownCases_eq cases).symm

@[simp] theorem flatMap_declarators_shown (declarators : List Declarator)
    : declarators.flatMap (fun entry => entry.target.shown ++ shownOptional entry.init)
      = shownDeclarators declarators :=
  (shownDeclarators_eq declarators).symm

@[simp] theorem flatMap_expressions_shown (values : List Expression)
    : values.flatMap Expression.shown = shownExpressions values :=
  (shownExpressions_eq values).symm

@[simp] theorem flatMap_properties_shown (properties : List Property)
    : properties.flatMap Property.shown = shownProperties properties :=
  (shownProperties_eq properties).symm

@[simp] theorem shownExpressions_toList (value : Option Expression)
    : shownExpressions value.toList = shownOptional value := by
  cases value <;> simp [shownOptional, shownExpressions]

@[simp] theorem flatMap_alternate_shown (alternate : Option Statement)
    : alternate.toList.flatMap (Statement.shown .statement) = shownAlternate alternate := by
  cases alternate <;> simp [shownAlternate]

@[simp] theorem flatMap_init_shown (init : Option ForHead)
    : init.toList.flatMap ForHead.shown = shownInit init := by
  cases init <;> simp [shownInit]

@[simp] theorem flatMap_handler_shown (handler : Option CatchClause)
    : handler.toList.flatMap (fun clause => shownHandler (some clause)) = shownHandler handler := by
  cases handler with
  | none => rw [shownHandler]; rfl
  | some clause => simp only [Option.toList_some, List.flatMap_singleton]

@[simp] theorem flatMap_finalizer_shown (finalizer : Option Block)
    : finalizer.toList.flatMap Block.shown = shownFinalizer finalizer := by
  cases finalizer <;> simp [shownFinalizer]

@[simp] theorem flatMap_exported_shown (exported : Option ModuleName)
    : exported.toList.flatMap ModuleName.shown = (exported.map ModuleName.shown).getD [] := by
  cases exported <;> simp

@[simp] theorem flatMap_source_shown (source : Option Span)
    : source.toList.flatMap (fun span => [Shown.string span .moduleSource])
      = source.toList.map fun span => .string span .moduleSource := by
  cases source <;> rfl

-----------------------------------------------------------------------------------------
-- Visits to nodes of which nothing in particular is known
-----------------------------------------------------------------------------------------

@[simp] theorem plain_block_shown (value : Block)
    : (plain (.block value)).shown = value.shown :=
  rfl

@[simp] theorem plain_statement_shown (value : Statement)
    : (plain (.statement value)).shown = value.shown .statement :=
  rfl

@[simp] theorem plain_declarator_shown (value : Declarator)
    : (plain (.declarator value)).shown = value.target.shown ++ shownOptional value.init :=
  rfl

@[simp] theorem plain_forHead_shown (value : ForHead)
    : (plain (.forHead value)).shown = value.shown :=
  rfl

@[simp] theorem plain_switchCase_shown (value : SwitchCase)
    : (plain (.switchCase value)).shown
      = shownOptional value.test ++ shownStatements .switchCase value.body :=
  rfl

@[simp] theorem plain_catchClause_shown (value : CatchClause)
    : (plain (.catchClause value)).shown = shownHandler (some value) :=
  rfl

@[simp] theorem plain_function_shown (value : FunctionDef)
    : (plain (.function value)).shown = value.shown :=
  rfl

@[simp] theorem plain_class_shown (value : ClassDef)
    : (plain (.class value)).shown = value.shown :=
  rfl

@[simp] theorem plain_propertyKey_shown (value : PropertyKey)
    : (plain (.propertyKey value)).shown = value.shown :=
  rfl

@[simp] theorem plain_template_shown (value : TemplateLiteral)
    : (plain (.template value)).shown = value.shown .expression :=
  rfl

@[simp] theorem plain_property_shown (value : Property)
    : (plain (.property value)).shown = value.shown :=
  rfl

@[simp] theorem plain_specifier_shown (value : Specifier)
    : (plain (.specifier value)).shown = value.shown :=
  rfl

@[simp] theorem plain_importAttribute_shown (value : ImportAttribute)
    : (plain (.importAttribute value)).shown = value.shown :=
  rfl

@[simp] theorem plain_moduleName_shown (value : ModuleName)
    : (plain (.moduleName value)).shown = value.shown :=
  rfl

@[simp] theorem plain_moduleSource_shown (span : Span)
    : (plain (.moduleSource span)).shown = [.string span .moduleSource] :=
  rfl

-----------------------------------------------------------------------------------------
-- What a visit shows, from what the visits below it show
-----------------------------------------------------------------------------------------

theorem shown_eq_of_expression (value : Expression) (enclosing : Enclosing) (site : LiteralSite)
    : shown ⟨.expression value, enclosing, site⟩
      = own ⟨.expression value, enclosing, site⟩
        ++ (children ⟨.expression value, enclosing, site⟩).flatMap shown := by
  cases value
  case string => rfl
  case template => simp [children, own, shown]
  all_goals
    change Expression.shown _ = _
    simp [own, children, Node.children, Node.ofExpression, Expression.shown, List.flatMap_map]

/-- A literal that is a whole statement stands where that statement hands it to. -/
theorem shown_eq_of_expressionStatement (value : Expression) (placement : Placement)
    (enclosing : Enclosing)
    : (Statement.expression value placement).shown enclosing
      = .statement (.expression value placement) enclosing
        :: shown ⟨.expression value, .statement,
          .statement placement.isDirective placement.isBodyLevel⟩ := by
  cases value <;> rw [Statement.shown]
  case string | template => rfl
  all_goals simp [shown]

theorem shown_eq_of_statement (value : Statement) (enclosing : Enclosing) (site : LiteralSite)
    : shown ⟨.statement value, enclosing, site⟩
      = own ⟨.statement value, enclosing, site⟩
        ++ (children ⟨.statement value, enclosing, site⟩).flatMap shown := by
  change Statement.shown _ _ = _
  cases value
  case expression value placement =>
    rw [shown_eq_of_expressionStatement]
    simp [own, children]
  all_goals
    simp [own, children, Node.children, Node.ofStatement, Statement.shown, List.flatMap_map]

/-- A visit shows its own part, then what the visits to what its node consists of show. -/
theorem shown_eq (visit : Visit)
    : visit.shown = visit.own ++ visit.children.flatMap shown := by
  obtain ⟨node, enclosing, site⟩ := visit
  cases node with
  | expression value => exact shown_eq_of_expression value enclosing site
  | statement value => exact shown_eq_of_statement value enclosing site
  | block value =>
      obtain ⟨body, span⟩ := value
      change Block.shown _ = _
      simp [own, children, Block.shown]
  | declarator value =>
      obtain ⟨target, init⟩ := value
      change Expression.shown _ ++ _ = _
      simp [own, children, Node.children, List.flatMap_map]
  | forHead value =>
      change ForHead.shown _ = _
      cases value <;> simp [own, children, Node.children, ForHead.shown, List.flatMap_map]
  | switchCase value =>
      obtain ⟨test, body⟩ := value
      change _ ++ shownStatements _ _ = _
      simp [own, children, List.flatMap_map]
  | catchClause value =>
      obtain ⟨param, body⟩ := value
      change shownHandler _ = _
      simp [own, children, Node.children, shownHandler, List.flatMap_map]
  | function value =>
      obtain ⟨params, body, isAsync, isGenerator⟩ := value
      change FunctionDef.shown _ = _
      simp [own, children, Node.children, FunctionDef.shown, List.flatMap_map]
  | «class» value =>
      obtain ⟨superClass, members, span⟩ := value
      change ClassDef.shown _ = _
      rw [ClassDef.shown, ← flatMap_members_shown]
      simp [own, children, List.flatMap_map]
  | classMember value =>
      change Shown.classMember _ _ :: ClassMember.shown _ = _
      cases value <;> simp [own, children, Node.children, ClassMember.shown, List.flatMap_map]
  | propertyKey value =>
      change PropertyKey.shown _ = _
      cases value <;> simp [own, children, Node.children, PropertyKey.shown]
  | template value =>
      obtain ⟨span, quasis, substitutions, isTagged⟩ := value
      change TemplateLiteral.shown _ _ = _
      simp [own, children, Node.children, TemplateLiteral.shown, List.flatMap_map]
  | property value =>
      change Property.shown _ = _
      cases value <;> simp [own, children, Node.children, Property.shown, List.flatMap_map]
  | specifier value =>
      obtain ⟨name, givenName⟩ := value
      change Specifier.shown _ = _
      simp [own, children, Node.children, Specifier.shown, List.flatMap_map]
  | importAttribute value =>
      change ImportAttribute.shown _ = _
      simp [own, children, Node.children, ImportAttribute.shown]
  | moduleName value =>
      change ModuleName.shown _ = _
      cases value <;> simp [own, children, Node.children, ModuleName.shown]
  | moduleSource span => rfl

end Visit

end ScriptStyle
