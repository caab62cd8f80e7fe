import Casefile.Text.Columns
import Casefile.Text.Pieces

/-!
# Tables drawn with characters

* `drawTable` — a table with a heading and a line between every two rows. A cell takes as many lines as
  its text, and a column is as wide as its widest line.
-/

set_option autoImplicit false

namespace Casefile.Cli

/-- The lines of a cell. -/
def cellLines (cell : String) : List String :=
  (Text.pieces '\n' cell.toList).map String.ofList

/-- The width of a cell. -/
def cellWidth (cell : String) : Nat :=
  (cellLines cell).foldl (fun n line => max n (Text.columns line)) 0

/-- The width of each column. -/
def columnWidths (heading : List String) (rows : List (List String)) : List Nat :=
  rows.foldl (fun widths row => List.zipWith (fun n cell => max n (cellWidth cell)) widths row)
    (heading.map cellWidth)

/-- The line between two rows. -/
def ruleLine (widths : List Nat) : String :=
  "+" ++ String.join (widths.map fun n => String.ofList (List.replicate (n + 2) '-') ++ "+")

/-- A line of a cell, filled up to the width of its column. -/
def fill (width : Nat) (line : String) : String :=
  line ++ String.ofList (List.replicate (width - Text.columns line) ' ')

/-- The lines of a row. -/
def rowLines (widths : List Nat) (row : List String) : List String :=
  let cells := row.map cellLines
  let height := cells.foldl (fun n lines => max n lines.length) 1
  (List.range height).map fun i =>
    "|" ++ String.join (List.zipWith (fun n lines => " " ++ fill n (lines[i]?.getD "") ++ " |")
      widths cells)

/-- A table, every line of it ended by a line break. -/
def drawTable (heading : List String) (rows : List (List String)) : String :=
  let widths := columnWidths heading rows
  let rule := ruleLine widths
  let lines := (heading :: rows).flatMap fun row => rowLines widths row ++ [rule]
  String.join ((rule :: lines).map (· ++ "\n"))

end Casefile.Cli
