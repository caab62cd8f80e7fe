import Casefile.Tables.Writing

/-!
# Rows as lists of cells

* `Column` — a column of a table: its name, what it makes of a value, and whether it may be empty.
* `Layout` — how the rows of a table read as lists of cells.
* `Picture`, `Tables.pictures` — the tables as they can be shown: names, columns and cells.
-/

set_option autoImplicit false

namespace Casefile

/-- What a column makes of a value: numbers out of texts that spell them, whole ones if they can be, or texts
out of numbers. -/
inductive Affinity where
  | integer
  | text
  deriving DecidableEq, Repr

/-- A column of a table. -/
structure Column where
  name : String
  affinity : Affinity
  required : Bool
  deriving DecidableEq, Repr

/-- How the rows of a table read as lists of cells, one for each column. A table with a key has it in
its first column. -/
structure Layout (α : Type) where
  table : String
  columns : List Column
  key? : Option (α → Int)
  cells : α → List Cell
  ofCells : List Cell → Option α

namespace Layout

def objects : Layout ObjectRow where
  table := Tables.objectsName
  columns := [⟨"obj_id", .integer, true⟩, ⟨"par_obj_id", .integer, false⟩,
    ⟨"type", .integer, true⟩]
  key? := some ObjectRow.id
  cells r := [.int r.id, r.parent, r.type]
  ofCells
    | [.int id, parent, type] => some ⟨id, parent, type⟩
    | _ => none

def sourceInfo : Layout SourceInfoRow where
  table := Tables.sourceInfoName
  columns := [⟨"obj_id", .integer, true⟩, ⟨"device_id", .text, true⟩, ⟨"time_zone", .text, true⟩,
    ⟨"added_date_time", .integer, false⟩]
  key? := some SourceInfoRow.id
  cells r := [.int r.id, r.device, r.timeZone, r.addedAt]
  ofCells
    | [.int id, device, timeZone, addedAt] => some ⟨id, device, timeZone, addedAt⟩
    | _ => none

def files : Layout FileRow where
  table := Tables.filesName
  columns := [⟨"obj_id", .integer, true⟩, ⟨"data_source_obj_id", .integer, true⟩,
    ⟨"type", .integer, true⟩, ⟨"name", .text, true⟩, ⟨"meta_type", .integer, false⟩,
    ⟨"dir_type", .integer, false⟩, ⟨"size", .integer, false⟩, ⟨"mtime", .integer, false⟩,
    ⟨"parent_path", .text, false⟩]
  key? := some FileRow.id
  cells r := [.int r.id, r.source, r.type, r.name, r.metaType, r.dirType, r.size, r.modified,
    r.parentPath]
  ofCells
    | [.int id, source, type, name, metaType, dirType, size, modified, parentPath] =>
      some ⟨id, source, type, name, metaType, dirType, size, modified, parentPath⟩
    | _ => none

def filePaths : Layout FilePathRow where
  table := Tables.filePathsName
  columns := [⟨"obj_id", .integer, true⟩, ⟨"path", .text, true⟩]
  key? := some FilePathRow.id
  cells r := [.int r.id, r.path]
  ofCells
    | [.int id, path] => some ⟨id, path⟩
    | _ => none

def imageNames : Layout ImageNameRow where
  table := Tables.imageNamesName
  columns := [⟨"obj_id", .integer, true⟩, ⟨"sequence", .integer, true⟩, ⟨"name", .text, true⟩]
  key? := none
  cells r := [r.image, r.sequence, r.name]
  ofCells
    | [image, sequence, name] => some ⟨image, sequence, name⟩
    | _ => none

def versions : Layout VersionRow where
  table := Tables.versionsName
  columns := [⟨"version", .integer, true⟩, ⟨"applied_at", .integer, true⟩]
  key? := some VersionRow.version
  cells r := [.int r.version, r.appliedAt]
  ofCells
    | [.int version, appliedAt] => some ⟨version, appliedAt⟩
    | _ => none

end Layout

/-- A table as it can be shown; there are no rows to show of one that is missing. -/
structure Picture where
  table : String
  columns : List String
  rows : Option (List (List Cell))
  deriving DecidableEq, Repr

/-- The picture without one of its columns. -/
def Picture.without (column : String) (p : Picture) : Picture :=
  let kept {α : Type} (xs : List α) : List α :=
    ((p.columns.zip xs).filter (·.1 ≠ column)).map (·.2)
  { p with columns := kept p.columns, rows := p.rows.map fun rows => rows.map kept }

/-- Whether one list of cells comes before another or is the same. -/
def Cell.leEach : List Cell → List Cell → Bool
  | [], _ => true
  | _ :: _, [] => false
  | a :: as, b :: bs => if a.same b then leEach as bs else a.le b

namespace Layout

variable {α : Type}

/-- The rows in the order of their cells; those of a table with a key are in its order already. -/
def picture (l : Layout α) (rows? : Option (List α)) : Picture where
  table := l.table
  columns := l.columns.map (·.name)
  rows := rows?.map fun rows =>
    let cells := rows.map l.cells
    if l.key?.isSome then cells else cells.mergeSort fun a b => Cell.leEach (a.take 2) (b.take 2)

end Layout

/-- The six tables as they can be shown. -/
def Tables.pictures (t : Tables) : List Picture :=
  [Layout.objects.picture t.objects, Layout.sourceInfo.picture t.sourceInfo,
    Layout.files.picture t.files, Layout.filePaths.picture t.filePaths,
    Layout.imageNames.picture t.imageNames, Layout.versions.picture t.versions]

end Casefile
