import ScriptStyle.Json

/-!
Configuration tables, and the statements that build them. A table may be opened by a header,
arise on the way to another, or be written in one piece; which of them may be extended later
depends on how it arose.
-/

namespace ScriptStyle.Toml

/-- How a table arose. -/
inductive Origin where
  /-- By a header of its own. -/
  | header
  /-- On the way of a header to another table. -/
  | passed
  /-- On the way of a dotted key. -/
  | dotted
  /-- Written between braces. -/
  | inline
deriving DecidableEq, Repr, Inhabited

/-- A value. -/
inductive Value where
  /-- A string, number, truth value or time. -/
  | scalar (value : Json)
  | array (items : List Value)
  /-- The tables of headers in double brackets, the last first. -/
  | tables (items : List (List (String × Value)))
  | table (origin : Origin) (entries : List (String × Value))
deriving Inhabited

/-- Named values, the first entered first. -/
abbrev Entries := List (String × Value)

namespace Entries

/-- The value of a name. -/
def get? (entries : Entries) (name : String) : Option Value :=
  (entries.find? fun entry => entry.1 == name).map Prod.snd

/-- The entries with a value for a name, in the place of the one it had. -/
def put (entries : Entries) (name : String) (value : Value) : Entries :=
  if (get? entries name).isSome then
    entries.map fun entry => if entry.1 == name then (name, value) else entry
  else
    entries ++ [(name, value)]

/-- Adds a value under a dotted key. Only tables that dotted keys made may be passed, and the
name must be new. -/
def addDotted (value : Value) : List String → Entries → Option Entries
  | [], _ => none
  | [name], entries => if (get? entries name).isSome then none else some (put entries name value)
  | name :: others, entries =>
      match get? entries name with
      | none => (addDotted value others []).map fun inner =>
          put entries name (.table .dotted inner)
      | some (.table .dotted inner) => (addDotted value others inner).map fun inner =>
          put entries name (.table .dotted inner)
      | some _ => none

/-- Changes the table that the names of a header lead to. Of tables in double brackets the last
is meant. Tables on the way are made where there are none. -/
def changeAt (change : Entries → Option Entries) : List String → Entries → Option Entries
  | [], entries => change entries
  | name :: others, entries =>
      match get? entries name with
      | none => (changeAt change others []).map fun inner =>
          put entries name (.table .passed inner)
      | some (.table .inline _) => none
      | some (.table origin inner) => (changeAt change others inner).map fun inner =>
          put entries name (.table origin inner)
      | some (.tables (last :: before)) => (changeAt change others last).map fun last =>
          put entries name (.tables (last :: before))
      | some _ => none

/-- Opens the table of a name by a header. It must be new, or have been passed only. -/
def openTable (name : String) (entries : Entries) : Option Entries :=
  match get? entries name with
  | none => some (put entries name (.table .header []))
  | some (.table .passed inner) => some (put entries name (.table .header inner))
  | some _ => none

/-- Begins another table of a name by a header in double brackets. -/
def appendTable (name : String) (entries : Entries) : Option Entries :=
  match get? entries name with
  | none => some (put entries name (.tables [[]]))
  | some (.tables items) => some (put entries name (.tables ([] :: items)))
  | some _ => none

end Entries

/-- One line of a document that says something. -/
inductive Statement where
  /-- A header, and whether it is in double brackets. -/
  | header (path : List String) (isList : Bool)
  | keyValue (path : List String) (value : Value)

/-- The table after a header. -/
def openHeader (entries : Entries) (path : List String) (isList : Bool) : Option Entries :=
  match path.getLast? with
  | none => none
  | some name =>
      Entries.changeAt (if isList then Entries.appendTable name else Entries.openTable name)
        path.dropLast entries

/-- The table that statements build after a header. -/
def build (current : List String) : Entries → List Statement → Option Entries
  | entries, [] => some entries
  | entries, .header path isList :: others => do
      let entries ← openHeader entries path isList
      build path entries others
  | entries, .keyValue path value :: others => do
      let entries ← Entries.changeAt (Entries.addDotted value path) current entries
      build current entries others

mutual

/-- A value as a tree of values. -/
def Value.toJson : Value → Json
  | .scalar value => value
  | .array items => .array (listToJson items)
  | .tables items => .array (tablesToJson items).reverse
  | .table _ entries => .object (entriesToJson entries)

/-- Each value of a list. -/
def listToJson : List Value → List Json
  | [] => []
  | value :: others => value.toJson :: listToJson others

/-- Each table of a list. -/
def tablesToJson : List (List (String × Value)) → List Json
  | [] => []
  | entries :: others => .object (entriesToJson entries) :: tablesToJson others

/-- Each entry of a table. -/
def entriesToJson : List (String × Value) → List (String × Json)
  | [] => []
  | (name, value) :: others => (name, value.toJson) :: entriesToJson others

end

end ScriptStyle.Toml
