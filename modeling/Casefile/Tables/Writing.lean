import Casefile.Store
import Casefile.Tables

/-!
# Writing to the tables

* `Tables.insertObject` and its like — one row each; they fail if the table is missing or the key is
  taken.
* `Tables.writeSource`, `Tables.writeFile`, `Tables.writeImage` — the rows of one object.

An operation that fails after some of its rows were written leaves those rows in the tables it
returns.
-/

set_option autoImplicit false

namespace Casefile

/-- The numbers that stand for the kind of an object in `tsk_objects`. -/
def ObjectRow.imageType : Int := 0
def ObjectRow.fileType : Int := 4

/-- The numbers that stand for the kind of a file in `tsk_files`. -/
structure FileCodes where
  type : Int
  metaType : Int
  dirType : Int
  deriving DecidableEq, Repr

namespace FileCodes

/-- The root of a logical source, which is a directory only in the case. -/
def sourceRoot : FileCodes := ⟨6, 11, 11⟩

/-- A file or directory that was found. -/
def ofKind : EntryKind → FileCodes
  | .file => ⟨3, 1, 5⟩
  | .directory => ⟨8, 2, 3⟩

end FileCodes

namespace Tables

/-- The name of the one table that every recorded object has a row in. -/
def objectsName : String := "tsk_objects"
def sourceInfoName : String := "data_source_info"
def filesName : String := "tsk_files"
def filePathsName : String := "tsk_files_path"
def imageNamesName : String := "tsk_image_names"
def versionsName : String := "schema_version"

def missing (table : String) : Failure :=
  .database (.noSuchTable table)

def taken (table column : String) : Failure :=
  .database (.duplicateKey table column)

/-- The id that the next object gets: one more than the largest, and 1 in an empty table. -/
def nextId (rows : List ObjectRow) : ObjectId :=
  match (rows.map (·.id)).max? with
  | some m => m + 1
  | none => 1

/-- The tables with a new object, and its id. -/
def insertObject (parent : Cell) (type : Int) (t : Tables) : Except Failure (ObjectId × Tables) :=
  match t.objects with
  | none => .error (missing objectsName)
  | some rows =>
    let row : ObjectRow := ⟨nextId rows, parent, .int type⟩
    match insertByKey ObjectRow.id row rows with
    | some rows => .ok (row.id, { t with objects := some rows })
    | none => .error (taken objectsName "obj_id")

def insertSourceInfo (row : SourceInfoRow) (t : Tables) : Except Failure Tables :=
  match t.sourceInfo with
  | none => .error (missing sourceInfoName)
  | some rows =>
    match insertByKey SourceInfoRow.id row rows with
    | some rows => .ok { t with sourceInfo := some rows }
    | none => .error (taken sourceInfoName "obj_id")

def insertFile (row : FileRow) (t : Tables) : Except Failure Tables :=
  match t.files with
  | none => .error (missing filesName)
  | some rows =>
    match insertByKey FileRow.id row rows with
    | some rows => .ok { t with files := some rows }
    | none => .error (taken filesName "obj_id")

def insertFilePath (row : FilePathRow) (t : Tables) : Except Failure Tables :=
  match t.filePaths with
  | none => .error (missing filePathsName)
  | some rows =>
    match insertByKey FilePathRow.id row rows with
    | some rows => .ok { t with filePaths := some rows }
    | none => .error (taken filePathsName "obj_id")

def insertImageName (row : ImageNameRow) (t : Tables) : Except Failure Tables :=
  match t.imageNames with
  | none => .error (missing imageNamesName)
  | some rows => .ok { t with imageNames := some (rows ++ [row]) }

/-- The path under which the objects directly below a source of a given name are shown. -/
def rootPath (name : String) : String :=
  "/" ++ name ++ "/"

/-- Records the root of a logical source. -/
def writeSource (source : SourceRequest) (name : String) (t : Tables) :
    Except Failure ObjectId × Tables :=
  match t.insertObject .null ObjectRow.fileType with
  | .error e => (.error e, t)
  | .ok (id, t) =>
    match t.insertSourceInfo ⟨id, .text source.device.text, .text source.timeZone,
        .int source.addedAt⟩ with
    | .error e => (.error e, t)
    | .ok t =>
      let codes := FileCodes.sourceRoot
      match t.insertFile ⟨id, .int id, .int codes.type, .text name, .int codes.metaType,
          .int codes.dirType, .int 0, .null, .text "/"⟩ with
      | .error e => (.error e, t)
      | .ok t => (.ok id, t)

/-- Records a file or directory that is shown under `parentPath`. -/
def writeFile (file : FileRequest) (parentPath : String) (t : Tables) :
    Except Failure ObjectId × Tables :=
  match t.insertObject (.int file.parent) ObjectRow.fileType with
  | .error e => (.error e, t)
  | .ok (id, t) =>
    let codes := FileCodes.ofKind file.entry.kind
    match t.insertFile ⟨id, .int file.source, .int codes.type, .text file.entry.name,
        .int codes.metaType, .int codes.dirType, .int file.entry.size,
        .ofInt? file.entry.modified, .text parentPath⟩ with
    | .error e => (.error e, t)
    | .ok t =>
      match t.insertFilePath ⟨id, .text file.entry.path.display⟩ with
      | .error e => (.error e, t)
      | .ok t => (.ok id, t)

/-- Records the segments of an image from a given number on. -/
def writeSegments (image : ObjectId) (first : Nat) :
    List String → Tables → Except Failure Unit × Tables
  | [], t => (.ok (), t)
  | path :: paths, t =>
    match t.insertImageName ⟨.int image, .int first, .text path⟩ with
    | .error e => (.error e, t)
    | .ok t => writeSegments image (first + 1) paths t

/-- Records an image with its segments. -/
def writeImage (image : ImageRequest) (t : Tables) : Except Failure ObjectId × Tables :=
  match t.insertObject .null ObjectRow.imageType with
  | .error e => (.error e, t)
  | .ok (id, t) =>
    match t.insertSourceInfo ⟨id, .text image.device.text, .text image.timeZone,
        .int image.addedAt⟩ with
    | .error e => (.error e, t)
    | .ok t =>
      match writeSegments id 0 image.paths t with
      | (.error e, t) => (.error e, t)
      | (.ok (), t) => (.ok id, t)

end Tables

end Casefile
