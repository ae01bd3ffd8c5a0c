/-!
JSON values. The members of an object keep the order in which they were written.
-/

namespace ScriptStyle

/-- A JSON value. A number is kept as it was written. -/
inductive Json where
  | null
  | bool (value : Bool)
  | number (literal : String)
  | string (value : String)
  | array (items : List Json)
  | object (members : List (String × Json))
deriving Inhabited, Repr

namespace Json

/-- A natural number. -/
def ofNat (n : Nat) : Json :=
  .number (toString n)

/-- An absent value is null. -/
def ofOption (value : Option Json) : Json :=
  value.getD .null

/-- The last member of an object with the given name. -/
def get? (value : Json) (name : String) : Option Json :=
  match value with
  | .object members => (members.reverse.find? fun member => member.1 == name).map Prod.snd
  | _ => none

/-- The text of a string. -/
def string? : Json → Option String
  | .string text => some text
  | _ => none

/-- The items of an array. -/
def array? : Json → Option (List Json)
  | .array items => some items
  | _ => none

/-- The value of a number written as a natural number. -/
def nat? : Json → Option Nat
  | .number literal => literal.toNat?
  | _ => none

/-- The value of a truth value. -/
def bool? : Json → Option Bool
  | .bool value => some value
  | _ => none

end Json

end ScriptStyle
