import Casefile.DataSource
import Casefile.Double
import Casefile.Scan

/-!
# The tables of a case database

* `Cell` — a value in a row. A column holds what was stored in it, which need not be of the
  column's type once others have written to the database.
* `ObjectRow`, `SourceInfoRow`, `FileRow`, `FilePathRow`, `ImageNameRow`, `VersionRow` — the rows.
* `Tables` — the six tables; any of them may be missing. Tables with a key are kept in key order.
* `insertByKey` — the rows with one more, or none if the key is taken.
-/

set_option autoImplicit false

namespace Casefile

/-- A value in a row. -/
inductive Cell where
  | null
  | int (i : Int)
  | real (x : Double)
  | text (s : String)
  /-- Text whose bytes are not UTF-8. -/
  | illText (bytes : List UInt8)
  | blob (bytes : List UInt8)
  deriving DecidableEq, Repr

namespace Cell

/-- The cell of a number that may be missing. -/
def ofInt? : Option Int → Cell
  | some i => .int i
  | none => .null

/-- The cell of text given by its bytes. -/
def ofTextBytes (bytes : List UInt8) : Cell :=
  match Text.Utf8.text? bytes with
  | some s => .text s
  | none => .illText bytes

/-- The bytes of text and blobs. -/
def bytes : Cell → List UInt8
  | .text s => Text.Utf8.bytes s
  | .illText b => b
  | .blob b => b
  | _ => []

/-- The place of the kind of a cell in the order of values. -/
def rank : Cell → Nat
  | .null => 0
  | .int _ => 1
  | .real _ => 1
  | .text _ => 2
  | .illText _ => 2
  | .blob _ => 3

/-- The order of values: nothing, numbers of both kinds by their size, text by its bytes, blobs by their
bytes. -/
def le (a b : Cell) : Bool :=
  match a, b with
  | .int i, .int j => i ≤ j
  | .int i, .real y => i * Double.perOne ≤ y.units
  | .real x, .int j => x.units ≤ j * Double.perOne
  | .real x, .real y => x.units ≤ y.units
  | a, b => a.rank < b.rank || (a.rank == b.rank && a.bytes ≤ b.bytes)

/-- Whether two values are equal in that order. -/
def same (a b : Cell) : Bool :=
  a.le b && b.le a

end Cell

/-- A row of `tsk_objects`: every object of a case has one. -/
structure ObjectRow where
  id : ObjectId
  parent : Cell
  type : Cell
  deriving DecidableEq, Repr

/-- A row of `data_source_info`. -/
structure SourceInfoRow where
  id : ObjectId
  device : Cell
  timeZone : Cell
  addedAt : Cell
  deriving DecidableEq, Repr

/-- A row of `tsk_files`: the root of a logical source, or a file or directory below one. -/
structure FileRow where
  id : ObjectId
  source : Cell
  type : Cell
  name : Cell
  metaType : Cell
  dirType : Cell
  size : Cell
  modified : Cell
  parentPath : Cell
  deriving DecidableEq, Repr

/-- A row of `tsk_files_path`: where a file was found. -/
structure FilePathRow where
  id : ObjectId
  path : Cell
  deriving DecidableEq, Repr

/-- A row of `tsk_image_names`: a segment of an image. -/
structure ImageNameRow where
  image : Cell
  sequence : Cell
  name : Cell
  deriving DecidableEq, Repr

/-- A row of `schema_version`. -/
structure VersionRow where
  version : Int
  appliedAt : Cell
  deriving DecidableEq, Repr

/-- The tables of a case database. -/
structure Tables where
  objects : Option (List ObjectRow)
  sourceInfo : Option (List SourceInfoRow)
  files : Option (List FileRow)
  filePaths : Option (List FilePathRow)
  imageNames : Option (List ImageNameRow)
  versions : Option (List VersionRow)
  deriving DecidableEq, Repr

/-- A database without any table. -/
def Tables.bare : Tables :=
  ⟨none, none, none, none, none, none⟩

/-- The rows with `r` at the place of its key; none if the key is taken. -/
def insertByKey {α : Type} (key : α → Int) (r : α) : List α → Option (List α)
  | [] => some [r]
  | x :: xs =>
    if key r < key x then some (r :: x :: xs)
    else if key r = key x then none
    else (insertByKey key r xs).map (x :: ·)

/-- A key larger than all others goes to the end. -/
theorem insertByKey_of_lt {α : Type} (key : α → Int) (r : α) (xs : List α)
    (h : ∀ x ∈ xs, key x < key r) : insertByKey key r xs = some (xs ++ [r]) := by
  induction xs with
  | nil => rfl
  | cons x xs ih =>
    have hx := h x (by simp)
    have hne : key r ≠ key x := by omega
    simp [insertByKey, Int.not_lt.2 (Int.le_of_lt hx), hne,
      ih fun y hy => h y (by simp [hy])]

end Casefile
