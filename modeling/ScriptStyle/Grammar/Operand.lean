import ScriptStyle.Grammar.Function

/-!
Operands: literals, names, brackets of all kinds, and what can follow an operand without
an operator.
-/

namespace ScriptStyle.Grammar.Scope

/-- A piece of a template after a substitution, and whether another substitution follows it. -/
def templatePiece : Parser (Span × Bool) := do
  match (← get).peek? with
  | some piece =>
      if piece.kind == .templateMiddle then
        Parser.advance
        pure (piece.span.shrink 1 2, true)
      else if piece.kind == .templateTail then
        Parser.advance
        pure (piece.span.shrink 1 1, false)
      else
        Parser.unexpected "`\x7d` closing a template substitution"
  | none => Parser.unexpected "`\x7d` closing a template substitution"

/-- A substitution of a template and the piece after it. -/
def substitution (scope : Scope) : Parser (Parser.Round (Expression × Span)) := do
  let value ← scope.expression true
  let (piece, more) ← templatePiece
  pure (if more then .more (value, piece) else .last (value, piece))

/-- A template literal. -/
def templateLiteral (scope : Scope) (isTagged : Bool) : Parser TemplateLiteral := do
  let start ← Parser.start
  match (← get).peek? with
  | none => Parser.unexpected "template literal"
  | some head =>
      Parser.advance
      if head.kind == .template then
        let span ← Parser.spanFrom start
        pure ⟨span, [head.span.shrink 1 1], [], isTagged⟩
      else
        let others ← Parser.rounds scope.substitution
        let span ← Parser.spanFrom start
        pure ⟨span, head.span.shrink 1 2 :: others.map Prod.snd, others.map Prod.fst, isTagged⟩

/-- An element of an array with the comma after it; the comma alone stands for no element. -/
def arrayElement (scope : Scope) : Parser (Option Expression) := do
  if ← Parser.eat "," then
    pure none
  else
    let element ← scope.spreadOrAssignment
    if !(← get).sees "]" then
      Parser.expect ","
    pure (some element)

/-- The elements of an array, with its brackets. -/
def arrayElements (scope : Scope) : Parser (List (Option Expression)) := do
  Parser.advance
  Parser.itemsUntil "]" scope.arrayElement

/-- The punctuators that end the name of a property. -/
def propertyNameEnds : List String := ["(", ":", ",", "\x7d", "="]

/-- An entry of an object. -/
def property (scope : Scope) : Parser Property := do
  if ← Parser.eat "..." then
    let value ← scope.assignment true
    pure (.spread value)
  else
    let modifiers ← Modifiers.parse propertyNameEnds
    let key ← scope.propertyKey
    if (← get).sees "(" then
      let definition ← scope.functionRest modifiers.isAsync modifiers.isGenerator
      pure (.method key definition)
    else if modifiers.requireMethod then
      Parser.unexpected "`(`"
    else if ← Parser.eat ":" then
      let value ← scope.assignment true
      pure (.keyValue key value)
    else
      match key with
      | .identifier name => do
          let default ← Parser.after? "=" (scope.assignment true)
          pure (.shorthand name default)
      | _ => Parser.unexpected "`:`"

/-- The entries of an object, with its braces. -/
def properties (scope : Scope) : Parser (List Property) := do
  Parser.advance
  Parser.commaListUntil "\x7d" scope.property

/-- An operand that begins with a word. -/
def wordOperand (scope : Scope) (word : String) : Parser (Span → Expression) := do
  let cursor ← get
  match word with
  | "function" => .function <$> scope.functionDef
  | "class" => .class <$> scope.classDef
  | "import" => do
      Parser.advance
      if ← Parser.eat "." then
        let _ ← identifier
        pure .atom
      else
        .importCall <$> scope.arguments
  | "this" | "super" | "null" | "true" | "false" => do
      Parser.advance
      pure .atom
  | word =>
      if word == "async" && cursor.seesNth 1 "function" && !cursor.newlineAt 1 then
        .function <$> scope.functionDef
      else do
        Parser.advance
        pure .identifier

/-- An operand that begins with a punctuator. -/
def punctuatorOperand (scope : Scope) (text : String) : Parser (Span → Expression) :=
  match text with
  | "(" => do
      Parser.advance
      let inner ← scope.expression true
      Parser.expect ")"
      pure (.paren inner)
  | "[" => .array <$> scope.arrayElements
  | "\x7b" => .object <$> scope.properties
  | _ => Parser.unexpected "expression"

/-- An operand without its span, from its first token. -/
def operandForm (scope : Scope) (token : Token) : Parser (Span → Expression) :=
  match token.kind with
  | .identifier => scope.wordOperand token.text
  | .privateName | .number | .regex => do
      Parser.advance
      pure .atom
  | .string => do
      Parser.advance
      pure .string
  | .template | .templateHead => .template <$> scope.templateLiteral false
  | .punctuator => scope.punctuatorOperand token.text
  | _ => Parser.unexpected "expression"

/-- An operand without anything after it. A slash in its place begins a regular expression. -/
def operand (scope : Scope) : Parser Expression := do
  Parser.rereadAt .punctuator .regex
  let start ← Parser.start
  match (← get).peek? with
  | none => Parser.unexpected "expression"
  | some token =>
      let form ← scope.operandForm token
      let span ← Parser.spanFrom start
      pure (form span)

/-- What follows an operand without an operator in between. -/
inductive Suffix where
  | member (name : Span)
  | index (key : Expression)
  | call (arguments : List Expression)
  | tagged (literal : TemplateLiteral)

/-- An expression with a suffix, up to the given end. -/
def Suffix.apply (object : Expression) (suffix : Suffix) (stop : Nat) : Expression :=
  let span : Span := ⟨object.span.start, stop⟩
  match suffix with
  | member name => .member object name span
  | index key => .index object key span
  | call arguments => .call object arguments span
  | tagged literal => .taggedTemplate object literal span

/-- The name of an accessed property. -/
def memberName : Parser Span := do
  match (← get).peek? with
  | some token =>
      if token.kind == .identifier || token.kind == .privateName then
        Parser.advance
        pure token.span
      else
        Parser.unexpected "property name"
  | none => Parser.unexpected "property name"

/-- The rest of a computed access, after its bracket. -/
def indexRest (scope : Scope) : Parser Suffix := do
  let key ← scope.expression true
  Parser.expect "]"
  pure (.index key)

/-- The suffix at the cursor, if there is one. The callee of a construction takes no calls
and no optional access. -/
def suffix? (scope : Scope) (allowCall : Bool) : Parser (Option Suffix) := do
  match (← get).peek? with
  | none => pure none
  | some token =>
      match token.kind with
      | .template | .templateHead => do
          let literal ← scope.templateLiteral true
          pure (some (.tagged literal))
      | .punctuator =>
          match token.text with
          | "." => do
              Parser.advance
              let name ← memberName
              pure (some (.member name))
          | "[" => do
              Parser.advance
              some <$> scope.indexRest
          | "(" =>
              if allowCall then do
                let arguments ← scope.arguments
                pure (some (.call arguments))
              else
                pure none
          | "?." =>
              if allowCall then do
                Parser.advance
                if (← get).sees "(" then
                  let arguments ← scope.arguments
                  pure (some (.call arguments))
                else if ← Parser.eat "[" then
                  some <$> scope.indexRest
                else
                  let name ← memberName
                  pure (some (.member name))
              else
                pure none
          | _ => pure none
      | _ => pure none

/-- One more suffix, with the place where it ends. -/
def suffixRound (scope : Scope) (allowCall : Bool) : Parser (Parser.Round (Suffix × Nat)) := do
  match ← scope.suffix? allowCall with
  | none => pure .stop
  | some suffix => do
      let stop := (← get).lastStop
      pure (.more (suffix, stop))

/-- An expression with all the suffixes that follow it. -/
def withSuffixes (scope : Scope) (allowCall : Bool) (object : Expression) : Parser Expression := do
  let suffixes ← Parser.rounds (scope.suffixRound allowCall)
  pure (suffixes.foldl (fun object next => next.1.apply object next.2) object)

/-- What a construction constructs from. -/
def callee (scope : Scope) : Parser Expression := do
  let _ ← Parser.start
  let object ← if (← get).sees "new" then scope.innerConstruct else scope.operand
  scope.withSuffixes false object

/-- The arguments of a construction, which may be left out with their parentheses. -/
def constructArguments (scope : Scope) : Parser (List Expression) := do
  if (← get).sees "(" then scope.arguments else pure []

/-- A construction, or the meta property that begins with the same word. -/
def construct (scope : Scope) : Parser Expression := do
  let start ← Parser.start
  Parser.advance
  if ← Parser.eat "." then
    let _ ← identifier
    let span ← Parser.spanFrom start
    pure (.atom span)
  else
    let callee ← scope.callee
    let arguments ← scope.constructArguments
    let span ← Parser.spanFrom start
    pure (.construct callee arguments span)

/-- An operand with all its suffixes. -/
def leftHandSide (scope : Scope) : Parser Expression := do
  let _ ← Parser.start
  let object ← if (← get).sees "new" then scope.construct else scope.operand
  scope.withSuffixes true object

/-- Whether a token is an increment or decrement operator. -/
def isUpdateOperator (token : Token) : Bool :=
  token.isPunctuatorIn ["++", "--"]

/-- An operand and the increment or decrement after it, which must be on the same line. -/
def postfixed (scope : Scope) : Parser Expression := do
  let start ← Parser.start
  let operand ← scope.leftHandSide
  if (← get).peek?.any (fun token => isUpdateOperator token && !token.newlineBefore) then
    Parser.advance
    let span ← Parser.spanFrom start
    pure (.update operand span)
  else
    pure operand

/-- The punctuators before which `await` is a name. -/
def awaitNameEnds : List String := [")", "]", "\x7d", ",", ";", ":", "=", ".", "?.", "=>"]

/-- Whether the current token is an operator in front of its operand, updates apart. -/
def isUnaryOperator (cursor : Cursor) (token : Token) : Bool :=
  match token.kind with
  | .punctuator => ["!", "~", "+", "-"].contains token.text
  | .identifier =>
      ["typeof", "void", "delete"].contains token.text
        || (token.text == "await"
          && (cursor.peekAt? 1).any (!·.isPunctuatorIn awaitNameEnds))
  | _ => false

/-- An operand with the operators in front of it. -/
def unaryNode (scope : Scope) : Parser Expression := do
  let start ← Parser.start
  let cursor ← get
  match cursor.peek? with
  | none => Parser.unexpected "expression"
  | some token =>
      if isUpdateOperator token then
        Parser.advance
        let operand ← scope.unary
        let span ← Parser.spanFrom start
        pure (.update operand span)
      else if isUnaryOperator cursor token then
        Parser.advance
        let operand ← scope.unary
        let span ← Parser.spanFrom start
        pure (.unary operand span)
      else
        scope.postfixed

end ScriptStyle.Grammar.Scope
