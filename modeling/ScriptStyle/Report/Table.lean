import ScriptStyle.Text.Width

/-!
Tables drawn with lines. A cell with line breaks takes up several lines, and every column is as
wide as its widest line.
-/

namespace ScriptStyle

/-- The lines of a cell. -/
abbrev Cell := List String

/-- A row of cells under a row of headings. -/
structure Table where
  headings : List Cell
  rows : List (List Cell)
deriving Repr, Inhabited

namespace Cell

/-- The cell with a text. -/
def ofText (text : String) : Cell :=
  text.splitOn "\n"

/-- The number of columns of a text that a cell takes up. -/
def width (cell : Cell) : Nat :=
  (cell.map fun line => Text.width line.toList).foldl max 0

/-- A line of a cell with blanks around it, as wide as asked for. -/
def padded (width : Nat) (line : String) : String :=
  " " ++ line ++ String.ofList (List.replicate (width - Text.width line.toList) ' ') ++ " "

end Cell

/-- The characters of a horizontal line: its left end, the line, its crossings and its right
end. -/
structure TableRule where
  left : String
  line : String
  crossing : String
  right : String

namespace TableRule

/-- The line above a table. -/
def top : TableRule := ⟨"┌", "─", "┬", "┐"⟩

/-- The line below the headings. -/
def heading : TableRule := ⟨"╞", "═", "╪", "╡"⟩

/-- The line between two rows. -/
def between : TableRule := ⟨"├", "╌", "┼", "┤"⟩

/-- The line below a table. -/
def bottom : TableRule := ⟨"└", "─", "┴", "┘"⟩

/-- A horizontal line over columns of the given widths. -/
def draw (rule : TableRule) (widths : List Nat) : String :=
  let parts := widths.map fun width => String.join (List.replicate (width + 2) rule.line)
  rule.left ++ String.intercalate rule.crossing parts ++ rule.right

end TableRule

namespace Table

/-- The width of every column. -/
def widths (table : Table) : List Nat :=
  table.rows.foldl (fun widths row => widths.zipWith max (row.map Cell.width))
    (table.headings.map Cell.width)

/-- The lines of a row. -/
def rowLines (widths : List Nat) (row : List Cell) : List String :=
  let height := (row.map List.length).foldl max 0
  (List.range height).map fun index =>
    let parts := widths.zipWith (fun width cell => Cell.padded width (cell[index]?.getD "")) row
    "│" ++ String.intercalate "┆" parts ++ "│"

/-- The lines of the rows, with a line between any two. -/
def bodyLines (widths : List Nat) : List (List Cell) → List String
  | [] => []
  | [row] => rowLines widths row
  | row :: others =>
      rowLines widths row ++ TableRule.between.draw widths :: bodyLines widths others

/-- A table as a text, without a line break at its end. -/
def draw (table : Table) : String :=
  let widths := table.widths
  String.intercalate "\n"
    ([TableRule.top.draw widths] ++ rowLines widths table.headings
      ++ [TableRule.heading.draw widths] ++ bodyLines widths table.rows
      ++ [TableRule.bottom.draw widths])

end Table

end ScriptStyle
