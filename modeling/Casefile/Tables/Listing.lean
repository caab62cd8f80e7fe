import Casefile.Tables.Writing

/-!
# Listing the data sources

* `Tables.SourceKeys.has` — whether an id has an object and information about a data source.
* `Cell.readText` — the text in a cell, or why there is none.
* `Tables.logicalSources`, `Tables.imageSources` — the sources with their names; one name that
  cannot be read makes the listing fail.
* `Tables.sourceCount`, `Tables.defaultSourceName` — the number of logical sources, and the name for a source of
  a given number that brings none.
-/

set_option autoImplicit false

namespace Casefile

/-- Why a value of some type is no text. -/
def Cell.notText (type : String) : String :=
  "mismatched types; Rust type `alloc::string::String` (as SQL type `TEXT`) is not compatible "
    ++ "with SQL type `" ++ type ++ "`"

/-- The text in a cell, or why there is none. -/
def Cell.readText : Cell → Except String String
  | .text s => .ok s
  | .illText bytes =>
    match Text.Utf8.read bytes with
    | .ok s => .ok s
    | .error fault => .error fault.message
  | .blob _ => .error (notText "BLOB")
  | .int _ => .error (notText "INTEGER")
  | .real _ => .error (notText "REAL")
  | .null => .error "unexpected null; try decoding as an `Option`"

namespace Tables

/-- The tables a listing needs beside the one with the names. -/
structure SourceKeys where
  objects : List ObjectRow
  sourceInfo : List SourceInfoRow
  deriving Repr

/-- Whether an object of this id exists and is a data source. -/
def SourceKeys.has (k : SourceKeys) (id : ObjectId) : Bool :=
  k.sourceInfo.any (·.id = id) && k.objects.any (·.id = id)

/-- The tables that tell which ids are data sources. -/
def sourceKeys (t : Tables) : Except Failure SourceKeys :=
  match t.objects, t.sourceInfo with
  | none, _ => .error (missing objectsName)
  | some _, none => .error (missing sourceInfoName)
  | some objects, some sourceInfo => .ok ⟨objects, sourceInfo⟩

/-- The sources of ids and cells with their names; the first that has no name ends the listing. -/
def readNames : List (ObjectId × Cell) → Except Failure (List SourceRow)
  | [] => .ok []
  | (id, cell) :: rest =>
    match cell.readText with
    | .error why => .error (.malformedRow ("error occurred while decoding column 1: " ++ why))
    | .ok name =>
      match readNames rest with
      | .error e => .error e
      | .ok rows => .ok (⟨id, name⟩ :: rows)

/-- The logical sources with the names of their roots, by id. -/
def logicalSources (t : Tables) : Except Failure (List SourceRow) :=
  match t.files with
  | none => .error (missing filesName)
  | some files =>
    match t.sourceKeys with
    | .error e => .error e
    | .ok keys => readNames ((files.filter fun r => keys.has r.id).map fun r => (r.id, r.name))

/-- The id that a segment belongs to, if it is a data source. Ids are looked up as whole numbers, so a double
belongs to none. -/
def SourceKeys.imageOf? (k : SourceKeys) (r : ImageNameRow) : Option ObjectId :=
  match r.image with
  | .int id => if k.has id then some id else none
  | _ => none

/-- The order of segments: by image, then by number. -/
def segmentLe (a b : ObjectId × ImageNameRow) : Bool :=
  a.1 < b.1 || (a.1 == b.1 && Cell.le a.2.sequence b.2.sequence)

/-- The images with the names of their segments, by id and segment number. -/
def imageSources (t : Tables) : Except Failure (List SourceRow) :=
  match t.imageNames with
  | none => .error (missing imageNamesName)
  | some names =>
    match t.sourceKeys with
    | .error e => .error e
    | .ok keys =>
      let selected := names.filterMap fun r => (keys.imageOf? r).map fun id => (id, r)
      readNames ((selected.mergeSort segmentLe).map fun r => (r.1, r.2.name))

/-- The number of logical sources. -/
def sourceCount (t : Tables) : Except Failure Nat :=
  match t.files, t.sourceInfo with
  | none, _ => .error (missing filesName)
  | some _, none => .error (missing sourceInfoName)
  | some files, some info => .ok (files.countP fun f => info.any (·.id = f.id))

/-- The default name of the source of a given number. -/
def defaultSourceName (n : Nat) : String :=
  "LogicalFileSet" ++ toString n

end Tables

end Casefile
