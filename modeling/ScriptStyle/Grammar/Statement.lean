import ScriptStyle.Grammar.Expression
import ScriptStyle.Grammar.Module

/-!
Statements and declarations.
-/

namespace ScriptStyle.Grammar

/-- Whether `let` at the cursor begins a declaration and is not a name. -/
def Cursor.letDeclares (cursor : Cursor) : Bool :=
  (cursor.peekAt? 1).any fun token =>
    (token.kind == .identifier && !(["in", "instanceof", "of"].contains token.text))
      || token.isPunctuatorIn ["[", "\x7b"]

/-- Whether the value of a `return` is at the cursor; it must begin on the same line. -/
def Cursor.valueFollows (cursor : Cursor) : Bool :=
  cursor.peek?.any fun token =>
    !token.newlineBefore && !token.isPunctuatorIn [";", "\x7d"]

/-- Whether an asynchronous function is at the cursor. -/
def Cursor.atAsyncFunction (cursor : Cursor) : Bool :=
  cursor.sees "async" && cursor.seesNth 1 "function" && !cursor.newlineAt 1

namespace Scope

/-- A declared name or pattern. -/
def bindingTarget (scope : Scope) : Parser Expression := do
  let cursor ← get
  if cursor.sees "[" || cursor.sees "\x7b" then scope.operand else identifier

/-- A declared name or pattern with its initial value. -/
def declarator (scope : Scope) (allowIn : Bool) : Parser Declarator := do
  let target ← scope.bindingTarget
  let init ← Parser.after? "=" (scope.assignment allowIn)
  pure ⟨target, init⟩

/-- The keyword at a cursor, taken for a declaration. -/
def variableKind (cursor : Cursor) : VariableKind :=
  match cursor.peek?.map Token.text with
  | some "var" => .var
  | some "let" => .let
  | _ => .const

/-- Declared variables, with the keyword in front of them. -/
def declaration (scope : Scope) (allowIn : Bool) : Parser (VariableKind × List Declarator) := do
  let kind := variableKind (← get)
  Parser.advance
  let declarators ← Parser.commaSeparated (scope.declarator allowIn)
  pure (kind, declarators)

/-- A declaration as a statement. -/
def variableStatement (scope : Scope) : Parser (Placement → Statement) := do
  let (kind, declarators) ← scope.declaration true
  Parser.consumeSemicolon
  pure (.declaration kind declarators)

/-- A statement that is an expression. -/
def expressionStatement (scope : Scope) : Parser (Placement → Statement) := do
  let value ← scope.expression true
  Parser.consumeSemicolon
  pure (.expression value)

/-- A conditional statement. -/
def conditionalStatement (scope : Scope) : Parser (Placement → Statement) := do
  Parser.advance
  let test ← scope.parenthesized
  let consequent ← scope.statement
  let alternate ← Parser.after? "else" scope.statement
  pure (.conditional test consequent alternate)

/-- What stands first in the head of a loop, if anything does. -/
def forInit (scope : Scope) : Parser (Option ForHead) := do
  let cursor ← get
  if cursor.sees ";" then
    pure none
  else if cursor.sees "var" || cursor.sees "const" || (cursor.sees "let" && cursor.letDeclares) then
    let (kind, declarators) ← scope.declaration false
    pure (some (.declaration kind declarators))
  else
    let value ← scope.expression false
    pure (some (.value value))

/-- An expression, unless the given token is at the cursor. -/
def expressionUnless (scope : Scope) (closing : String) : Parser (Option Expression) := do
  Parser.onlyIf (!(← get).sees closing) (scope.expression true)

/-- The rest of a loop with three parts in its head, after the first of them. -/
def forLoopRest (scope : Scope) (init : Option ForHead) : Parser (Placement → Statement) := do
  Parser.expect ";"
  let test ← scope.expressionUnless ";"
  Parser.expect ";"
  let update ← scope.expressionUnless ")"
  Parser.expect ")"
  let body ← scope.statement
  pure (.forLoop init test update body)

/-- What a loop goes over: elements are those of an expression without commas. -/
def forEachObject (scope : Scope) (isOf : Bool) : Parser Expression :=
  if isOf then scope.assignment true else scope.expression true

/-- The rest of a loop over an object, after the word that introduces it. -/
def forEachRest (scope : Scope) (left : ForHead) (isOf : Bool) : Parser (Placement → Statement) := do
  let right ← scope.forEachObject isOf
  Parser.expect ")"
  let body ← scope.statement
  pure (.forEach left right body)

/-- A loop with a head. -/
def forStatement (scope : Scope) : Parser (Placement → Statement) := do
  Parser.advance
  let _ ← Parser.eat "await"
  Parser.expect "("
  match ← scope.forInit with
  | none => scope.forLoopRest none
  | some left => do
      let cursor ← get
      if cursor.sees "in" || cursor.sees "of" then
        Parser.advance
        scope.forEachRest left (cursor.sees "of")
      else
        scope.forLoopRest (some left)

/-- A loop with its test in front. -/
def whileStatement (scope : Scope) : Parser (Placement → Statement) := do
  Parser.advance
  let test ← scope.parenthesized
  let body ← scope.statement
  pure (.whileLoop test body)

/-- A loop with its test at the end; the semicolon after it is always optional. -/
def doWhileStatement (scope : Scope) : Parser (Placement → Statement) := do
  Parser.advance
  let body ← scope.statement
  Parser.expect "while"
  let test ← scope.parenthesized
  let _ ← Parser.eat ";"
  pure (.doWhile body test)

/-- A return from a function. -/
def returnStatement (scope : Scope) : Parser (Placement → Statement) := do
  Parser.advance
  let value ← Parser.onlyIf (← get).valueFollows (scope.expression true)
  Parser.consumeSemicolon
  pure (.returning value)

/-- A jump out of a loop or to its next round. The label must stand on the same line. -/
def jumpStatement (form : Placement → Statement) : Parser (Placement → Statement) := do
  Parser.advance
  let cursor ← get
  Parser.advanceIf (cursor.atKind .identifier && !cursor.newlineAt 0)
  Parser.consumeSemicolon
  pure form

/-- A raised error. -/
def throwStatement (scope : Scope) : Parser (Placement → Statement) := do
  Parser.advance
  let value ← scope.expression true
  Parser.consumeSemicolon
  pure (.throwing value)

/-- A handler, after its first word. -/
def catchClause (scope : Scope) : Parser CatchClause := do
  let param ← Parser.after? "(" do
    let param ← scope.bindingTarget
    Parser.expect ")"
    pure param
  let body ← scope.block
  pure ⟨param, body⟩

/-- A guarded block with what follows it. Neither a handler nor a final block is required. -/
def tryStatement (scope : Scope) : Parser (Placement → Statement) := do
  Parser.advance
  let block ← scope.block
  let handler ← Parser.after? "catch" scope.catchClause
  let finalizer ← Parser.after? "finally" scope.block
  pure (.tryCatch block handler finalizer)

/-- A statement of a clause of a switch, unless the clause ends. -/
def clauseRound (scope : Scope) : Parser (Parser.Round Statement) := do
  let cursor ← get
  if cursor.sees "case" || cursor.sees "default" then
    pure .stop
  else if ← Parser.atClose "\x7d" then
    pure .stop
  else
    Parser.Round.more <$> scope.statement

/-- The test of a clause of a switch, with the word in front of it. -/
def caseTest (scope : Scope) : Parser (Option Expression) := do
  if ← Parser.eat "case" then
    some <$> scope.expression true
  else
    Parser.expect "default"
    pure none

/-- A clause of a switch. -/
def switchCase (scope : Scope) : Parser SwitchCase := do
  let test ← scope.caseTest
  Parser.expect ":"
  let body ← Parser.rounds scope.clauseRound
  pure ⟨test, body⟩

/-- A switch. -/
def switchStatement (scope : Scope) : Parser (Placement → Statement) := do
  Parser.advance
  let discriminant ← scope.parenthesized
  Parser.expect "\x7b"
  let cases ← Parser.itemsUntil "\x7d" scope.switchCase
  pure (.switch discriminant cases)

/-- A statement whose names are looked up in an object first. -/
def withStatement (scope : Scope) : Parser (Placement → Statement) := do
  Parser.advance
  let object ← scope.parenthesized
  let body ← scope.statement
  pure (.withObject object body)

/-- The default export of a module, after its words. -/
def exportDefault (scope : Scope) : Parser (Placement → Statement) := do
  let cursor ← get
  if cursor.sees "function" || cursor.sees "class" || cursor.atAsyncFunction then
    let declaration ← scope.statement
    pure (.exportDefaultDeclaration declaration)
  else
    let value ← scope.assignment true
    Parser.consumeSemicolon
    pure (.exportDefaultValue value)

/-- An export statement. -/
def exportStatement (scope : Scope) : Parser (Placement → Statement) := do
  Parser.advance
  if ← Parser.eat "*" then
    exportAll
  else if ← Parser.eat "default" then
    scope.exportDefault
  else if (← get).sees "\x7b" then
    exportList
  else
    let declaration ← scope.statement
    pure (.exportDeclaration declaration)

/-- A statement with a label in front. -/
def labeledStatement (scope : Scope) : Parser (Placement → Statement) := do
  Parser.advance
  Parser.advance
  let body ← scope.statement
  pure (.labeled body)

/-- A statement that begins with a word, where no keyword decides its form. -/
def plainWordStatement (scope : Scope) (cursor : Cursor) : Parser (Placement → Statement) :=
  if cursor.seesNth 1 ":" then scope.labeledStatement else scope.expressionStatement

/-- A statement that begins with a word. -/
def wordStatement (scope : Scope) (word : String) : Parser (Placement → Statement) := do
  let cursor ← get
  match word with
  | "var" | "const" => scope.variableStatement
  | "let" => if cursor.letDeclares then scope.variableStatement else scope.plainWordStatement cursor
  | "function" => .function <$> scope.functionDef
  | "async" =>
      if cursor.atAsyncFunction then
        .function <$> scope.functionDef
      else
        scope.plainWordStatement cursor
  | "class" => .class <$> scope.classDef
  | "if" => scope.conditionalStatement
  | "for" => scope.forStatement
  | "while" => scope.whileStatement
  | "do" => scope.doWhileStatement
  | "return" => scope.returnStatement
  | "break" => jumpStatement .breaking
  | "continue" => jumpStatement .continuing
  | "throw" => scope.throwStatement
  | "debugger" => do
      Parser.advance
      Parser.consumeSemicolon
      pure .debugger
  | "try" => scope.tryStatement
  | "switch" => scope.switchStatement
  | "with" => scope.withStatement
  | "import" =>
      if cursor.seesNth 1 "(" || cursor.seesNth 1 "." then
        scope.plainWordStatement cursor
      else
        importFrom
  | "export" => scope.exportStatement
  | _ => scope.plainWordStatement cursor

/-- A statement without its placement. -/
def statementForm (scope : Scope) : Parser (Placement → Statement) := do
  match (← get).peek? with
  | none => Parser.endOfInput "statement"
  | some token =>
      if token.isPunctuator "\x7b" then
        .block <$> scope.block
      else if token.isPunctuator ";" then do
        Parser.advance
        pure .empty
      else if token.kind == .identifier then
        scope.wordStatement token.text
      else
        scope.expressionStatement

/-- A statement. Marks are left to the body that it may be an element of. -/
def statementNode (scope : Scope) : Parser Statement := do
  let first := (← get).index
  let start ← Parser.start
  let form ← scope.statementForm
  let extent ← Parser.extentFrom start first
  pure (form ⟨extent, false, false⟩)

end Scope

end ScriptStyle.Grammar
