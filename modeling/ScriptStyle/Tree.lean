import ScriptStyle.Span

/-!
Syntax trees of scripts and modules. A tree keeps the boundaries of statements and class
members as token indices, the literals, and the places in which literals stand.
Operators and names are left to the token list.
-/

namespace ScriptStyle

/-- The indices of the first and the last token of a construct, comments counted. -/
structure TokenRange where
  first : Nat
  /-- The terminating semicolon if the construct has one of its own. -/
  last : Nat
deriving DecidableEq, Repr, Inhabited

/-- Where a statement or class member stands, in bytes and in tokens. -/
structure Extent where
  /-- From the start of the first token to the end of the last one. -/
  span : Span
  tokens : TokenRange
deriving DecidableEq, Repr, Inhabited

/-- Where a statement stands, and how it stands to the body of the program or function around
it. -/
structure Placement extends Extent where
  /-- The statement is a string literal in the directive prologue of that body. -/
  isDirective : Bool
  /-- The statement is an element of that body and not nested in another statement. -/
  isBodyLevel : Bool
deriving DecidableEq, Repr, Inhabited

/-- The keyword of a variable declaration. -/
inductive VariableKind where
  | var
  | let
  | const
deriving DecidableEq, Repr, Inhabited

/-- A name in an import or export clause. -/
inductive ModuleName where
  | identifier (span : Span)
  | string (span : Span)
deriving DecidableEq, Repr, Inhabited

/-- A name in an import or export list, with the name that it is given there. -/
structure Specifier where
  name : ModuleName
  givenName : Option ModuleName
deriving DecidableEq, Repr, Inhabited

/-- An attribute of an import; the value is a string. -/
structure ImportAttribute where
  key : ModuleName
  value : Span
deriving DecidableEq, Repr, Inhabited

mutual

/-- An expression. The last field is always the span of the whole expression. -/
inductive Expression where
  | identifier (span : Span)
  /-- A number, regular expression, constant word, meta property or private name. -/
  | atom (span : Span)
  | string (span : Span)
  | template (literal : TemplateLiteral) (span : Span)
  | taggedTemplate (tag : Expression) (literal : TemplateLiteral) (span : Span)
  /-- An array literal or pattern; elements may be left out. -/
  | array (elements : List (Option Expression)) (span : Span)
  | object (properties : List Property) (span : Span)
  | function (definition : FunctionDef) (span : Span)
  | arrowBlock (params : List Expression) (body : Block) (isAsync : Bool) (span : Span)
  | arrowValue (params : List Expression) (body : Expression) (isAsync : Bool) (span : Span)
  | class (definition : ClassDef) (span : Span)
  /-- An operator in front of its operand. -/
  | unary (operand : Expression) (span : Span)
  /-- An increment or decrement. -/
  | update (operand : Expression) (span : Span)
  | binary (left right : Expression) (span : Span)
  | assign (target value : Expression) (span : Span)
  | conditional (test consequent alternate : Expression) (span : Span)
  | call (callee : Expression) (arguments : List Expression) (span : Span)
  | construct (callee : Expression) (arguments : List Expression) (span : Span)
  /-- A property accessed by its name. -/
  | member (object : Expression) (name : Span) (span : Span)
  /-- A property accessed by a computed key. -/
  | index (object key : Expression) (span : Span)
  | sequence (items : List Expression) (span : Span)
  | spread (operand : Expression) (span : Span)
  | yield (operand : Option Expression) (span : Span)
  | importCall (arguments : List Expression) (span : Span)
  | paren (inner : Expression) (span : Span)

/-- A statement. The last field is always its placement. -/
inductive Statement where
  | expression (value : Expression) (placement : Placement)
  | declaration (kind : VariableKind) (declarators : List Declarator) (placement : Placement)
  | function (definition : FunctionDef) (placement : Placement)
  | class (definition : ClassDef) (placement : Placement)
  | block (block : Block) (placement : Placement)
  /-- A semicolon alone. -/
  | empty (placement : Placement)
  | debugger (placement : Placement)
  | conditional (test : Expression) (consequent : Statement) (alternate : Option Statement)
      (placement : Placement)
  /-- A loop with an initializer, a test and an update, each of which may be absent. -/
  | forLoop (init : Option ForHead) (test update : Option Expression) (body : Statement)
      (placement : Placement)
  /-- A loop over the keys or the elements of an object. -/
  | forEach (left : ForHead) (right : Expression) (body : Statement) (placement : Placement)
  | whileLoop (test : Expression) (body : Statement) (placement : Placement)
  | doWhile (body : Statement) (test : Expression) (placement : Placement)
  | returning (value : Option Expression) (placement : Placement)
  | throwing (value : Expression) (placement : Placement)
  | breaking (placement : Placement)
  | continuing (placement : Placement)
  | labeled (body : Statement) (placement : Placement)
  | switch (discriminant : Expression) (cases : List SwitchCase) (placement : Placement)
  | tryCatch (block : Block) (handler : Option CatchClause) (finalizer : Option Block)
      (placement : Placement)
  | withObject (object : Expression) (body : Statement) (placement : Placement)
  /-- An import; default and namespace bindings are not kept. -/
  | importFrom (specifiers : List Specifier) (source : Span) (attributes : List ImportAttribute)
      (placement : Placement)
  | exportAll (exported : Option ModuleName) (source : Span) (attributes : List ImportAttribute)
      (placement : Placement)
  | exportList (specifiers : List Specifier) (source : Option Span)
      (attributes : List ImportAttribute) (placement : Placement)
  | exportDeclaration (declaration : Statement) (placement : Placement)
  | exportDefaultDeclaration (declaration : Statement) (placement : Placement)
  | exportDefaultValue (value : Expression) (placement : Placement)

/-- A brace-enclosed list of statements; the span includes the braces. -/
structure Block where
  body : List Statement
  span : Span

/-- A declared name or pattern and its initial value. -/
structure Declarator where
  target : Expression
  init : Option Expression

/-- What stands before the first semicolon, or before the object, in the head of a loop. -/
inductive ForHead where
  | declaration (kind : VariableKind) (declarators : List Declarator)
  | value (value : Expression)

/-- A clause of a switch; without a test it is the default clause. -/
structure SwitchCase where
  test : Option Expression
  body : List Statement

/-- The handler of a guarded block. -/
structure CatchClause where
  param : Option Expression
  body : Block

/-- A function of any kind other than an arrow function.
A default of a parameter is an assignment, and a rest parameter a spread. -/
structure FunctionDef where
  params : List Expression
  body : Block
  isAsync : Bool
  isGenerator : Bool

/-- A class; the span is that of its braces and what they enclose. -/
structure ClassDef where
  superClass : Option Expression
  members : List ClassMember
  span : Span

/-- An element of a class body. -/
inductive ClassMember where
  | field (key : PropertyKey) (value : Option Expression) (isStatic : Bool) (extent : Extent)
  /-- A method, an accessor or the constructor. -/
  | method (key : PropertyKey) (definition : FunctionDef) (isStatic : Bool) (extent : Extent)
  | staticBlock (block : Block) (extent : Extent)
  /-- A semicolon between members. -/
  | empty (extent : Extent)

/-- The name of a property, method or field. -/
inductive PropertyKey where
  | identifier (span : Span)
  | privateName (span : Span)
  | string (span : Span)
  | number (span : Span)
  | computed (value : Expression)

/-- A template literal. -/
structure TemplateLiteral where
  /-- From the first backtick to the last. -/
  span : Span
  /-- The spans of the text between the substitutions, delimiters excluded. -/
  quasis : List Span
  substitutions : List Expression
  /-- The literal is the argument of a tag. -/
  isTagged : Bool

/-- An entry of an object literal or object pattern. -/
inductive Property where
  | keyValue (key : PropertyKey) (value : Expression)
  | shorthand (name : Span) (default : Option Expression)
  | method (key : PropertyKey) (definition : FunctionDef)
  | spread (value : Expression)

end

/-- The span of an expression. -/
def Expression.span : Expression → Span
  | .identifier span | .atom span | .string span | .template _ span | .taggedTemplate _ _ span
  | .array _ span | .object _ span | .function _ span | .arrowBlock _ _ _ span
  | .arrowValue _ _ _ span | .class _ span | .unary _ span | .update _ span | .binary _ _ span
  | .assign _ _ span | .conditional _ _ _ span | .call _ _ span | .construct _ _ span
  | .member _ _ span | .index _ _ span | .sequence _ span | .spread _ span | .yield _ span
  | .importCall _ span | .paren _ span => span

/-- The placement of a statement. -/
def Statement.placement : Statement → Placement
  | .expression _ placement | .declaration _ _ placement | .function _ placement
  | .class _ placement | .block _ placement | .empty placement | .debugger placement
  | .conditional _ _ _ placement | .forLoop _ _ _ _ placement | .forEach _ _ _ placement
  | .whileLoop _ _ placement | .doWhile _ _ placement | .returning _ placement
  | .throwing _ placement | .breaking placement | .continuing placement
  | .labeled _ placement | .switch _ _ placement | .tryCatch _ _ _ placement
  | .withObject _ _ placement | .importFrom _ _ _ placement | .exportAll _ _ _ placement
  | .exportList _ _ _ placement | .exportDeclaration _ placement
  | .exportDefaultDeclaration _ placement | .exportDefaultValue _ placement => placement

/-- A statement with another placement. -/
def Statement.withPlacement (placement : Placement) : Statement → Statement
  | .expression value _ => .expression value placement
  | .declaration kind declarators _ => .declaration kind declarators placement
  | .function definition _ => .function definition placement
  | .class definition _ => .class definition placement
  | .block body _ => .block body placement
  | .empty _ => .empty placement
  | .debugger _ => .debugger placement
  | .conditional test consequent alternate _ => .conditional test consequent alternate placement
  | .forLoop init test update body _ => .forLoop init test update body placement
  | .forEach left right body _ => .forEach left right body placement
  | .whileLoop test body _ => .whileLoop test body placement
  | .doWhile body test _ => .doWhile body test placement
  | .returning value _ => .returning value placement
  | .throwing value _ => .throwing value placement
  | .breaking _ => .breaking placement
  | .continuing _ => .continuing placement
  | .labeled body _ => .labeled body placement
  | .switch discriminant clauses _ => .switch discriminant clauses placement
  | .tryCatch body handler finalizer _ => .tryCatch body handler finalizer placement
  | .withObject object body _ => .withObject object body placement
  | .importFrom specifiers source attributes _ =>
      .importFrom specifiers source attributes placement
  | .exportAll exported source attributes _ => .exportAll exported source attributes placement
  | .exportList specifiers source attributes _ =>
      .exportList specifiers source attributes placement
  | .exportDeclaration exported _ => .exportDeclaration exported placement
  | .exportDefaultDeclaration exported _ => .exportDefaultDeclaration exported placement
  | .exportDefaultValue value _ => .exportDefaultValue value placement

/-- The extent of a statement. -/
def Statement.extent (statement : Statement) : Extent :=
  statement.placement.toExtent

/-- The extent of a class member. -/
def ClassMember.extent : ClassMember → Extent
  | .field _ _ _ extent | .method _ _ _ extent | .staticBlock _ extent | .empty extent => extent

/-- Whether a class member is declared static; a static block is. -/
def ClassMember.isStatic : ClassMember → Bool
  | .field _ _ isStatic _ | .method _ _ isStatic _ => isStatic
  | .staticBlock _ _ => true
  | .empty _ => false

/-- The tree of a whole source. -/
structure Program where
  body : List Statement
  span : Span

end ScriptStyle
