import Casefile.Tables.Layout

/-!
# Editing the tables from outside

Other programs may write to a case database, too, and heed its schema only.

* `Edit` — dropping a table, and inserting, deleting and changing rows.
* `Tables.edit` — the number of rows concerned and the tables after an edit; none if the schema
  refuses it.
-/

set_option autoImplicit false

namespace Casefile

/-- Values for columns by name. -/
abbrev Assignment := List (String × Cell)

/-- An edit that does not go through this library. Rows are selected by the values of columns; without
any, all rows are. -/
inductive Edit where
  | drop (table : String)
  | insert (table : String) (row : Assignment)
  | delete (table : String) (selection : Assignment)
  | set (table : String) (column : String) (value : Cell) (selection : Assignment)
  deriving DecidableEq, Repr

/-- The numbers that a cell can hold: from -2^63 up to 2^63 - 1. -/
def Cell.admitsInt (i : Int) : Bool :=
  -0x8000000000000000 ≤ i && i ≤ 0x7FFFFFFFFFFFFFFF

/-- The cell of a double in a column of whole numbers. -/
def Cell.ofDouble (x : Double) : Cell :=
  match x.whole? with
  | some i => .int i
  | none => .real x

/-- The cell of a spelled number in a column of whole numbers. One with a point or a power of ten is a double
first, and so is one that is too large. -/
def Cell.ofNumeral (n : Numeral) : Cell :=
  if n.plain && admitsInt n.whole then .int n.whole else ofDouble n.nearest

/-- What a column makes of a value. -/
def Affinity.apply : Affinity → Cell → Cell
  | .text, .int i => .text (toString i)
  | .text, .real x => .text x.text
  | .integer, .real x => .ofDouble x
  | .integer, .text s => (Numeral.read? s).elim (.text s) .ofNumeral
  | _, c => c

/-- Whether a column takes a value. -/
def Column.admits (c : Column) (value : Cell) : Bool :=
  !(c.required && value = .null)

namespace Layout

variable {α : Type}

/-- Whether the table has a column for each of some values. -/
def knows (l : Layout α) (values : Assignment) : Bool :=
  values.all fun v => l.columns.any (·.name = v.1)

/-- Whether a row has the given values; nothing is equal to a value that is missing. -/
def selects (l : Layout α) (selection : Assignment) (row : α) : Bool :=
  (l.columns.zip (l.cells row)).all fun (column, cell) =>
    match selection.lookup column.name with
    | some value => cell ≠ .null && cell.same (column.affinity.apply value)
    | none => true

/-- The row of cells that the columns take. -/
def rowOf? (l : Layout α) (cells : List Cell) : Option α :=
  if (l.columns.zip cells).all fun (column, cell) => column.admits cell then l.ofCells cells
  else none

/-- The rows with one more. -/
def place (l : Layout α) (row : α) (rows : List α) : Option (List α) :=
  match l.key? with
  | some key => insertByKey key row rows
  | none => some (rows ++ [row])

/-- The key for a row that comes without one. -/
def nextKey (l : Layout α) (rows : List α) : Cell :=
  match l.key? with
  | some key => .int (((rows.map key).max?).elim 1 (· + 1))
  | none => .null

/-- The cells of a row of the given values. -/
def cellsFor (l : Layout α) (values : Assignment) (rows : List α) : List Cell :=
  let given (column : Column) : Cell :=
    column.affinity.apply ((values.lookup column.name).getD .null)
  match l.columns.map given with
  | .null :: rest => l.nextKey rows :: rest
  | cells => cells

/-- The rows with one more of the given values. -/
def insert (l : Layout α) (values : Assignment) (rows : List α) : Option (Nat × List α) :=
  if l.knows values then
    match l.rowOf? (l.cellsFor values rows) with
    | some row => (l.place row rows).map fun rows => (1, rows)
    | none => none
  else none

/-- The rows without those of the given values. -/
def delete (l : Layout α) (selection : Assignment) (rows : List α) : Option (Nat × List α) :=
  if l.knows selection then
    some (rows.countP (l.selects selection), rows.filter fun r => !l.selects selection r)
  else none

/-- The row with a value in a column. -/
def assign (l : Layout α) (name : String) (value : Cell) (row : α) : Option α :=
  l.rowOf? <| (l.columns.zip (l.cells row)).map fun (column, cell) =>
    if column.name = name then column.affinity.apply value else cell

/-- The rows with a value in a column of the selected ones. -/
def set (l : Layout α) (name : String) (value : Cell) (selection : Assignment) (rows : List α) :
    Option (Nat × List α) :=
  if l.knows ((name, value) :: selection) then
    let changed? := rows.mapM fun r =>
      if l.selects selection r then l.assign name value r else some r
    match changed? with
    | none => none
    | some changed =>
      (changed.foldlM (fun placed r => l.place r placed) []).map fun rows' =>
        (rows.countP (l.selects selection), rows')
  else none

/-- The rows after an edit of the table. -/
def edit (l : Layout α) (e : Edit) (rows? : Option (List α)) : Option (Nat × Option (List α)) :=
  match rows? with
  | none => none
  | some rows =>
    match e with
    | .drop _ => some (0, none)
    | .insert _ values => (l.insert values rows).map fun r => (r.1, some r.2)
    | .delete _ selection => (l.delete selection rows).map fun r => (r.1, some r.2)
    | .set _ name value selection =>
      (l.set name value selection rows).map fun r => (r.1, some r.2)

end Layout

/-- The table that an edit concerns. -/
def Edit.table : Edit → String
  | .drop table => table
  | .insert table _ => table
  | .delete table _ => table
  | .set table _ _ _ => table

/-- The number of rows concerned and the tables after an edit; none if the schema refuses it. -/
def Tables.edit (e : Edit) (t : Tables) : Option (Nat × Tables) :=
  if e.table = objectsName then
    (Layout.objects.edit e t.objects).map fun r => (r.1, { t with objects := r.2 })
  else if e.table = sourceInfoName then
    (Layout.sourceInfo.edit e t.sourceInfo).map fun r => (r.1, { t with sourceInfo := r.2 })
  else if e.table = filesName then
    (Layout.files.edit e t.files).map fun r => (r.1, { t with files := r.2 })
  else if e.table = filePathsName then
    (Layout.filePaths.edit e t.filePaths).map fun r => (r.1, { t with filePaths := r.2 })
  else if e.table = imageNamesName then
    (Layout.imageNames.edit e t.imageNames).map fun r => (r.1, { t with imageNames := r.2 })
  else if e.table = versionsName then
    (Layout.versions.edit e t.versions).map fun r => (r.1, { t with versions := r.2 })
  else none

end Casefile
