import ScriptStyle.Rule.Context
import ScriptStyle.Rule.Neighbour

/-!
The rule on semicolons: whether statements and class fields end with semicolons of their own.
-/

namespace ScriptStyle.Semicolons

/-- A construct that may end with a semicolon. -/
inductive Terminated where
  | statement (statement : Statement)
  | field (key : PropertyKey) (hasValue isStatic : Bool) (extent : Extent)

namespace Terminated

/-- Where a construct stands. -/
def extent : Terminated → Extent
  | .statement value => value.extent
  | .field _ _ _ extent => extent

/-- Whether a construct is a class field. -/
def isField : Terminated → Bool
  | .statement _ => false
  | .field _ _ _ _ => true

end Terminated

/-- Whether a statement of its form may end with a semicolon. -/
def isTerminated : Statement → Bool
  | .expression _ _ | .declaration _ _ _ | .returning _ _ | .throwing _ _ | .doWhile _ _ _
  | .debugger _ | .breaking _ | .continuing _ | .importFrom _ _ _ _ | .exportAll _ _ _ _
  | .exportList _ _ _ _ | .exportDefaultValue _ _ => true
  | _ => false

/-- The construct that a part of a tree is and what encloses it, if it may end with
a semicolon. -/
def terminated? : Shown → Option (Terminated × Enclosing)
  | .statement statement enclosing =>
      if isTerminated statement then some (.statement statement, enclosing) else none
  | .classMember (.field key value isStatic extent) enclosing =>
      some (.field key value.isSome isStatic extent, enclosing)
  | _ => none

/-- Names of fields that would become modifiers of the next member. -/
def modifierNames : List String := ["get", "set", "static"]

/-- Whether a class field without a semicolon would take up the token after it. -/
def isFieldHazard (context : RuleContext) (key : PropertyKey) (hasValue isStatic : Bool)
    (next : Token) : Bool :=
  let isModifier :=
    match key with
    | .identifier span =>
        let name := String.ofList (context.slice span)
        !hasValue && modifierNames.contains name && !(isStatic && name == "static")
    | _ => false
  isModifier || next.isPunctuator "*" || next.isWord "in" || next.isWord "instanceof"

/-- Whether a line that begins with a hazardous character could continue a construct; the index
is that of the last token before its semicolon. -/
def mayContinue (context : RuleContext) (construct : Terminated) (before : Option Nat) : Bool :=
  let endsOpen := !before.any context.arrowEnds.contains
  match construct with
  | .statement (.doWhile _ _ _) | .statement (.breaking _) | .statement (.continuing _)
  | .statement (.debugger _) | .statement (.importFrom _ _ _ _)
  | .statement (.exportAll _ _ _ _) | .statement (.exportList _ _ _ _) => false
  | .statement (.returning value _) => value.isSome
  | _ => endsOpen

/-- Whether the semicolon at an index can go without changing how the source is read.
Before the end, a brace or another semicolon it always can. -/
def canRemove (context : RuleContext) (options : SemicolonOptions) (construct : Terminated)
    (index : Nat) (next : Option Token) : Bool :=
  match next with
  | none => true
  | some next =>
      if next.isPunctuatorIn ["\x7d", ";"] then
        true
      else
        let isHazard :=
          match construct with
          | .field key hasValue isStatic _ => isFieldHazard context key hasValue isStatic next
          | .statement _ => false
        let before := Neighbour.previous? context.tokens index
        let onOneLine := before.any fun entry =>
          context.lines.sameLine entry.1.span.stop next.span.start
        if isHazard || onOneLine then
          false
        else if !construct.isField && options.beforeContinuation == .never
            && !mayContinue context construct (before.map Prod.snd) then
          true
        else
          !Neighbour.isHazard next

/-- Whether a construct is the last in a body, and the braces of that body are on one line. -/
def isLastOnOneLine (context : RuleContext) (next : Option Token) (body : Span) : Bool :=
  next.any (·.isPunctuator "\x7d") && context.lines.sameLine body.start body.stop

/-- Whether the options want no semicolon after the last construct on a line. -/
def isOmitted (context : RuleContext) (options : SemicolonOptions) (enclosing : Enclosing)
    (next : Option Token) : Bool :=
  match enclosing with
  | .block span => options.omitLastInBlock && isLastOnOneLine context next span
  | .classBody span => options.omitLastInClassBody && isLastOnOneLine context next span
  | _ => false

/-- The violation by a semicolon that should not be there. -/
def extra (context : RuleContext) (last : Token) : Diagnostic :=
  context.diagnostic .extraSemicolon none last.span
    (some ⟨last.span, "", some "remove semicolon"⟩)

/-- The violation by a semicolon that is not there. -/
def missing (context : RuleContext) (last : Token) : Diagnostic :=
  let place : Span := ⟨last.span.stop, last.span.stop⟩
  context.diagnostic .missingSemicolon none place (some ⟨place, ";", some "insert semicolon"⟩)

/-- The violation by a construct whose last token is given, if there is one. -/
def checkEnd? (context : RuleContext) (options : SemicolonOptions) (construct : Terminated)
    (enclosing : Enclosing) (last : Token) : Option Diagnostic :=
  let index := construct.extent.tokens.last
  let hasSemicolon := last.isPunctuator ";"
  let next := (Neighbour.next? context.tokens index).map Prod.fst
  match options.mode with
  | .never =>
      if hasSemicolon then
        if canRemove context options construct index next then some (extra context last) else none
      else if options.beforeContinuation == .always && !construct.isField
          && Neighbour.isHazard? next then
        some (missing context last)
      else
        none
  | .always =>
      let omitted := isOmitted context options enclosing next
      if hasSemicolon && omitted then
        some (extra context last)
      else if !hasSemicolon && !omitted then
        some (missing context last)
      else
        none

/-- The violation by a part of a tree, if there is one. -/
def check? (context : RuleContext) (options : SemicolonOptions) (part : Shown)
    : Option Diagnostic := do
  let (construct, enclosing) ← terminated? part
  let last ← context.tokens[construct.extent.tokens.last]?
  checkEnd? context options construct enclosing last

end ScriptStyle.Semicolons
