import ScriptStyle.Grammar.Scope
import ScriptStyle.Tree.Prologue

/-!
Functions, methods and classes.
-/

namespace ScriptStyle.Grammar.Scope

/-- The parameters of a function, with their parentheses. -/
def params (scope : Scope) : Parser (List Expression) := do
  Parser.expect "("
  Parser.commaListUntil ")" scope.spreadOrAssignment

/-- The body of a function; its statements stand in that function. -/
def functionBody (scope : Scope) (isGenerator : Bool) : Parser Block :=
  Block.asBody <$> (scope.inFunction isGenerator).block

/-- The parameters and the body of a function or method. -/
def functionRest (scope : Scope) (isAsync isGenerator : Bool) : Parser FunctionDef := do
  let params ← scope.params
  let body ← scope.functionBody isGenerator
  pure ⟨params, body, isAsync, isGenerator⟩

/-- A function from its first word on; the name may be absent. -/
def functionDef (scope : Scope) : Parser FunctionDef := do
  let isAsync ← Parser.eat "async"
  Parser.expect "function"
  let isGenerator ← Parser.eat "*"
  let _ ← Parser.onlyIf (!(← get).sees "(") identifier
  scope.functionRest isAsync isGenerator

/-- The name of a property, method or field. -/
def propertyKey (scope : Scope) : Parser PropertyKey := do
  match (← get).peek? with
  | none => Parser.endOfInput "property name"
  | some token =>
      match token.kind with
      | .identifier => do
          Parser.advance
          pure (.identifier token.span)
      | .privateName => do
          Parser.advance
          pure (.privateName token.span)
      | .string => do
          Parser.advance
          pure (.string token.span)
      | .number => do
          Parser.advance
          pure (.number token.span)
      | .punctuator =>
          if token.text == "[" then do
            Parser.advance
            let value ← scope.assignment true
            Parser.expect "]"
            pure (.computed value)
          else
            Parser.unexpected "property name"
      | _ => Parser.unexpected "property name"

end Scope

/-- The words in front of the name of a method or accessor. -/
structure Modifiers where
  isAsync : Bool
  isGenerator : Bool
  isAccessor : Bool

namespace Modifiers

/-- Whether there is a modifier, so that a method must follow. -/
def requireMethod (modifiers : Modifiers) : Bool :=
  modifiers.isAsync || modifiers.isGenerator || modifiers.isAccessor

/-- The modifiers in front of a name. A word is the name itself where the token after it is one
of the given punctuators or the end of the source. -/
def parse (nameEnds : List String) : Parser Modifiers := do
  let nameEndsAt (cursor : Cursor) : Bool :=
    (cursor.peekAt? 1).all (·.isPunctuatorIn nameEnds)
  let cursor ← get
  let isAsync := cursor.sees "async" && !nameEndsAt cursor && !cursor.newlineAt 1
  Parser.advanceIf isAsync
  let isGenerator ← Parser.eat "*"
  let cursor ← get
  let isAccessor := !isAsync && !isGenerator && (cursor.sees "get" || cursor.sees "set")
    && !nameEndsAt cursor
  Parser.advanceIf isAccessor
  pure ⟨isAsync, isGenerator, isAccessor⟩

end Modifiers

namespace Scope

/-- The punctuators that end the name of a class member. -/
def memberNameEnds : List String := ["(", "=", ";", "\x7d"]

/-- A class member that is neither a lone semicolon nor a static block, without its extent. -/
def memberDefinition (scope : Scope) (isStatic : Bool) : Parser (Extent → ClassMember) := do
  let modifiers ← Modifiers.parse memberNameEnds
  let key ← scope.propertyKey
  if (← get).sees "(" then
    let definition ← scope.functionRest modifiers.isAsync modifiers.isGenerator
    pure (.method key definition isStatic)
  else if modifiers.requireMethod then
    Parser.unexpected "`(`"
  else
    let value ← Parser.after? "=" (scope.assignment true)
    Parser.consumeSemicolon
    pure (.field key value isStatic)

/-- A class member without its extent. -/
def memberForm (scope : Scope) : Parser (Extent → ClassMember) := do
  if ← Parser.eat ";" then
    pure .empty
  else
    let cursor ← get
    if cursor.sees "static" && cursor.seesNth 1 "\x7b" then
      Parser.advance
      let block ← scope.block
      pure (.staticBlock block)
    else
      let isStatic := cursor.sees "static"
        && !(cursor.peekAt? 1).all (·.isPunctuatorIn memberNameEnds)
      Parser.advanceIf isStatic
      scope.memberDefinition isStatic

/-- A class member. -/
def classMember (scope : Scope) : Parser ClassMember := do
  let first := (← get).index
  let start ← Parser.start
  let form ← scope.memberForm
  let extent ← Parser.extentFrom start first
  pure (form extent)

/-- A class from its first word on; the name may be absent. -/
def classDef (scope : Scope) : Parser ClassDef := do
  Parser.expect "class"
  let cursor ← get
  Parser.advanceIf (cursor.atKind .identifier && !cursor.sees "extends")
  let superClass ← Parser.after? "extends" scope.heritage
  let start ← Parser.start
  Parser.expect "\x7b"
  let members ← Parser.itemsUntil "\x7d" scope.classMember
  let span ← Parser.spanFrom start
  pure ⟨superClass, members, span⟩

end Scope

end ScriptStyle.Grammar
