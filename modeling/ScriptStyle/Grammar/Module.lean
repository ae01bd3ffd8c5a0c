import ScriptStyle.Grammar.Scope

/-!
Import and export clauses: the parts of module statements that contain no expressions.
-/

namespace ScriptStyle.Grammar

/-- A name in an import or export clause. -/
def moduleName : Parser ModuleName := do
  match (← get).peek? with
  | some token =>
      if token.kind == .string then
        Parser.advance
        pure (.string token.span)
      else if token.kind == .identifier then
        Parser.advance
        pure (.identifier token.span)
      else
        Parser.unexpected "module export name"
  | none => Parser.unexpected "module export name"

/-- The string that names a module, or the value of an attribute. -/
def moduleString : Parser Span := do
  match (← get).peek? with
  | some token =>
      if token.kind == .string then
        Parser.advance
        pure token.span
      else
        Parser.unexpected "module specifier"
  | none => Parser.unexpected "module specifier"

/-- The name after `as`, if there is one. -/
def moduleAlias : Parser (Option ModuleName) :=
  Parser.after? "as" moduleName

/-- An entry of an import or export list. -/
def specifier : Parser Specifier := do
  let name ← moduleName
  let givenName ← moduleAlias
  pure ⟨name, givenName⟩

/-- An import or export list with its braces. -/
def specifiers : Parser (List Specifier) := do
  Parser.expect "\x7b"
  Parser.commaListUntil "\x7d" specifier

/-- An attribute of an import. -/
def importAttribute : Parser ImportAttribute := do
  let key ← moduleName
  Parser.expect ":"
  let value ← moduleString
  pure ⟨key, value⟩

/-- The attributes of an import, if there are any. The older of the two words that introduce
them must stand on the line of the import. -/
def importAttributes : Parser (List ImportAttribute) := do
  let cursor ← get
  if cursor.sees "with" || (cursor.sees "assert" && !cursor.newlineAt 0) then
    Parser.advance
    Parser.expect "\x7b"
    Parser.commaListUntil "\x7d" importAttribute
  else
    pure []

/-- The bindings of an import after its default binding: a namespace or a list. -/
def importBindings : Parser (List Specifier) := do
  if ← Parser.eat "*" then
    Parser.expect "as"
    let _ ← identifier
    pure []
  else
    specifiers

/-- What an import binds: a default binding, others after a comma, or only others. -/
def importNames : Parser (List Specifier) := do
  if (← get).atKind .identifier then
    Parser.advance
    if ← Parser.eat "," then importBindings else pure []
  else
    importBindings

/-- What an import binds, with the word before its module; nothing where the module comes
first. -/
def importClause : Parser (List Specifier) := do
  if (← get).atKind .string then
    pure []
  else
    let bound ← importNames
    Parser.expect "from"
    pure bound

/-- An import statement without its placement. -/
def importFrom : Parser (Placement → Statement) := do
  Parser.advance
  let bound ← importClause
  let source ← moduleString
  let entries ← importAttributes
  Parser.consumeSemicolon
  pure (.importFrom bound source entries)

/-- An export of everything that another module exports, after its asterisk. -/
def exportAll : Parser (Placement → Statement) := do
  let exported ← moduleAlias
  Parser.expect "from"
  let source ← moduleString
  let entries ← importAttributes
  Parser.consumeSemicolon
  pure (.exportAll exported source entries)

/-- The module that an export is from, if it is from another. -/
def exportOrigin : Parser (Option Span × List ImportAttribute) := do
  if ← Parser.eat "from" then
    let source ← moduleString
    let entries ← importAttributes
    pure (some source, entries)
  else
    pure (none, [])

/-- An export of a list of names, from this module or another. -/
def exportList : Parser (Placement → Statement) := do
  let exported ← specifiers
  let (source, entries) ← exportOrigin
  Parser.consumeSemicolon
  pure (.exportList exported source entries)

end ScriptStyle.Grammar
