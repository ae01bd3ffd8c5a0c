import ScriptStyle.Tree.Prologue

/-!
The parts of a tree that style rules look at, in the order in which they are looked at:
statements and class members with what encloses them, and literals with their sites.
-/

namespace ScriptStyle

/-- What a statement or class member is an element of. -/
inductive Enclosing where
  | program
  /-- A block, function body or static block with braces at the ends of the span. -/
  | block (span : Span)
  /-- A class body with braces at the ends of the span. -/
  | classBody (span : Span)
  | switchCase
  /-- Another statement, such as a loop or a label, of which it is the body. -/
  | statement
deriving DecidableEq, Repr, Inhabited

/-- The syntactic position of a literal. -/
inductive LiteralSite where
  /-- Any position of an expression that is not listed below. -/
  | expression
  /-- The literal is the whole of an expression statement. -/
  | statement (directive bodyLevel : Bool)
  /-- A property name that is not computed. -/
  | propertyKey
  /-- The module of an import or export, or the value of an attribute. -/
  | moduleSource
  /-- A name in an import or export list, or the key of an attribute. -/
  | moduleName
deriving DecidableEq, Repr, Inhabited

/-- A part of a tree that rules look at. -/
inductive Shown where
  | statement (statement : Statement) (enclosing : Enclosing)
  | classMember (member : ClassMember) (enclosing : Enclosing)
  | string (span : Span) (site : LiteralSite)
  | template (literal : TemplateLiteral) (site : LiteralSite)

/-- The literals in a name of an import or export clause. -/
def ModuleName.shown : ModuleName → List Shown
  | .identifier _ => []
  | .string span => [.string span .moduleName]

/-- The literals in an entry of an import or export list. -/
def Specifier.shown (specifier : Specifier) : List Shown :=
  specifier.name.shown ++ (specifier.givenName.map ModuleName.shown).getD []

/-- The literals in an attribute of an import. -/
def ImportAttribute.shown (entry : ImportAttribute) : List Shown :=
  entry.key.shown ++ [.string entry.value .moduleSource]

mutual

/-- The shown parts of an expression. -/
def Expression.shown : Expression → List Shown
  | .identifier _ | .atom _ => []
  | .string span => [.string span .expression]
  | .template literal _ => literal.shown .expression
  | .taggedTemplate tag literal _ => tag.shown ++ literal.shown .expression
  | .array elements _ => shownElements elements
  | .object properties _ => shownProperties properties
  | .function definition _ => definition.shown
  | .arrowBlock params body _ _ => shownExpressions params ++ body.shown
  | .arrowValue params body _ _ => shownExpressions params ++ body.shown
  | .class definition _ => definition.shown
  | .unary operand _ | .update operand _ | .spread operand _ | .paren operand _ => operand.shown
  | .binary left right _ | .assign left right _ => left.shown ++ right.shown
  | .conditional test consequent alternate _ =>
      test.shown ++ consequent.shown ++ alternate.shown
  | .call callee arguments _ | .construct callee arguments _ =>
      callee.shown ++ shownExpressions arguments
  | .member object _ _ => object.shown
  | .index object key _ => object.shown ++ key.shown
  | .sequence items _ | .importCall items _ => shownExpressions items
  | .yield operand _ => shownOptional operand

/-- The shown parts of an expression that may be absent. -/
def shownOptional : Option Expression → List Shown
  | none => []
  | some value => value.shown

/-- The shown parts of expressions, one after another. -/
def shownExpressions : List Expression → List Shown
  | [] => []
  | value :: others => value.shown ++ shownExpressions others

/-- The shown parts of the elements of an array. -/
def shownElements : List (Option Expression) → List Shown
  | [] => []
  | element :: others => shownOptional element ++ shownElements others

/-- The shown parts of a template: the literal itself, then its substitutions. -/
def TemplateLiteral.shown (site : LiteralSite) : TemplateLiteral → List Shown
  | ⟨span, quasis, substitutions, isTagged⟩ =>
      .template ⟨span, quasis, substitutions, isTagged⟩ site :: shownExpressions substitutions

/-- The shown parts of the entries of an object. -/
def shownProperties : List Property → List Shown
  | [] => []
  | property :: others => property.shown ++ shownProperties others

/-- The shown parts of an entry of an object. -/
def Property.shown : Property → List Shown
  | .keyValue key value => key.shown ++ value.shown
  | .shorthand _ default => shownOptional default
  | .method key definition => key.shown ++ definition.shown
  | .spread value => value.shown

/-- The shown parts of a property name. -/
def PropertyKey.shown : PropertyKey → List Shown
  | .string span => [.string span .propertyKey]
  | .computed value => value.shown
  | .identifier _ | .privateName _ | .number _ => []

/-- The shown parts of a function: its parameters, then its body. -/
def FunctionDef.shown : FunctionDef → List Shown
  | ⟨params, body, _, _⟩ => shownExpressions params ++ body.shown

/-- The shown parts of a class: what it extends, then its members. -/
def ClassDef.shown : ClassDef → List Shown
  | ⟨superClass, members, span⟩ =>
      shownOptional superClass ++ shownMembers (.classBody span) members

/-- The shown parts of class members. -/
def shownMembers (enclosing : Enclosing) : List ClassMember → List Shown
  | [] => []
  | member :: others =>
      .classMember member enclosing :: (member.shown ++ shownMembers enclosing others)

/-- The shown parts inside a class member. -/
def ClassMember.shown : ClassMember → List Shown
  | .field key value _ _ => key.shown ++ shownOptional value
  | .method key definition _ _ => key.shown ++ definition.shown
  | .staticBlock block _ => block.shown
  | .empty _ => []

/-- The shown parts of a block. -/
def Block.shown : Block → List Shown
  | ⟨body, span⟩ => shownStatements (.block span) body

/-- The shown parts of statements, one after another. -/
def shownStatements (enclosing : Enclosing) : List Statement → List Shown
  | [] => []
  | statement :: others => statement.shown enclosing ++ shownStatements enclosing others

/-- The shown parts of a statement: the statement itself, then what it contains. A literal that
is the whole statement is shown with the marks of the statement. -/
def Statement.shown (enclosing : Enclosing) (statement : Statement) : List Shown :=
  .statement statement enclosing :: match statement with
  | .expression (.string span) placement =>
      [.string span (.statement placement.isDirective placement.isBodyLevel)]
  | .expression (.template literal _) placement =>
      literal.shown (.statement placement.isDirective placement.isBodyLevel)
  | .expression value _ => value.shown
  | .declaration _ declarators _ => shownDeclarators declarators
  | .function definition _ => definition.shown
  | .class definition _ => definition.shown
  | .block block _ => block.shown
  | .empty _ | .debugger _ | .breaking _ | .continuing _ => []
  | .conditional test consequent alternate _ =>
      test.shown ++ consequent.shown .statement ++ shownAlternate alternate
  | .forLoop init test update body _ =>
      shownInit init ++ shownOptional test ++ shownOptional update ++ body.shown .statement
  | .forEach left right body _ => left.shown ++ right.shown ++ body.shown .statement
  | .whileLoop test body _ | .doWhile body test _ => test.shown ++ body.shown .statement
  | .returning value _ => shownOptional value
  | .throwing value _ => value.shown
  | .labeled body _ => body.shown .statement
  | .switch discriminant cases _ => discriminant.shown ++ shownCases cases
  | .tryCatch block handler finalizer _ =>
      block.shown ++ shownHandler handler ++ shownFinalizer finalizer
  | .withObject object body _ => object.shown ++ body.shown .statement
  | .importFrom specifiers source attributes _ =>
      specifiers.flatMap Specifier.shown ++ [.string source .moduleSource]
        ++ attributes.flatMap ImportAttribute.shown
  | .exportAll exported source attributes _ =>
      (exported.map ModuleName.shown).getD [] ++ [.string source .moduleSource]
        ++ attributes.flatMap ImportAttribute.shown
  | .exportList specifiers source attributes _ =>
      specifiers.flatMap Specifier.shown
        ++ source.toList.map (fun span => .string span .moduleSource)
        ++ attributes.flatMap ImportAttribute.shown
  | .exportDeclaration declaration _ | .exportDefaultDeclaration declaration _ =>
      declaration.shown .statement
  | .exportDefaultValue value _ => value.shown

/-- The shown parts of the alternative of a conditional statement. -/
def shownAlternate : Option Statement → List Shown
  | none => []
  | some statement => statement.shown .statement

/-- The shown parts of declared variables. -/
def shownDeclarators : List Declarator → List Shown
  | [] => []
  | ⟨target, init⟩ :: others => target.shown ++ shownOptional init ++ shownDeclarators others

/-- The shown parts of the head of a loop. -/
def ForHead.shown : ForHead → List Shown
  | .declaration _ declarators => shownDeclarators declarators
  | .value value => value.shown

/-- The shown parts of the initializer of a loop. -/
def shownInit : Option ForHead → List Shown
  | none => []
  | some head => head.shown

/-- The shown parts of the clauses of a switch. -/
def shownCases : List SwitchCase → List Shown
  | [] => []
  | ⟨test, body⟩ :: others =>
      shownOptional test ++ shownStatements .switchCase body ++ shownCases others

/-- The shown parts of a handler. -/
def shownHandler : Option CatchClause → List Shown
  | none => []
  | some ⟨param, body⟩ => shownOptional param ++ body.shown

/-- The shown parts of a final block. -/
def shownFinalizer : Option Block → List Shown
  | none => []
  | some block => block.shown

end

/-- The shown parts of a program, each statement before what it contains. -/
def Program.shown (program : Program) : List Shown :=
  shownStatements .program program.body

end ScriptStyle
