import Casefile.Ingest
import Casefile.Json
import Casefile.NameMap

/-!
# Values of the domain as JSON

* `DeviceId`, `Content`, `SourceConfig`, `Verdict` and `EntryKind` are written with `toJson` and read
  back with `ofJson?`.
* `Report.toJson`, `NameMap.toJson` — for reading by others.

Reading looks at the shape only: the rules for new device ids and configurations do not apply.
-/

set_option autoImplicit false

namespace Casefile

/-- Whether a number is one that an object id can be: from -2^63 up to 2^63 - 1. -/
def Json.isObjectId (i : Int) : Bool :=
  -0x8000000000000000 ≤ i && i ≤ 0x7FFFFFFFFFFFFFFF

/-- The texts in an array that holds nothing else. -/
def Json.texts? : Json → Option (List String)
  | .arr items => items.mapM fun
    | .str s => some s
    | _ => none
  | _ => none

namespace DeviceId

def toJson (d : DeviceId) : Json := .str d.text

def ofJson? : Json → Option DeviceId
  | .str s => some ⟨s⟩
  | _ => none

end DeviceId

namespace Content

def fieldNames : List String := ["object_id", "name", "device_id"]

def toJson (c : Content) : Json :=
  .obj [("object_id", .int c.objectId), ("name", .str c.name), ("device_id", c.device.toJson)]

def ofJson? (j : Json) : Option Content :=
  match j.fields? fieldNames with
  | some [.int id, .str name, device] =>
    match DeviceId.ofJson? device with
    | some device => if Json.isObjectId id then some ⟨id, name, device⟩ else none
    | none => none
  | _ => none

end Content

namespace SourceConfig

def fieldNames : List String := ["device_id", "root_virtual_directory_name", "local_file_paths"]

/-- The configuration as an object; none if a path is no text. -/
def toJson? (c : SourceConfig) : Option Json :=
  (c.paths.mapM Path.text?).map fun paths =>
    .obj [("device_id", c.device.toJson), ("root_virtual_directory_name", .str c.rootName),
      ("local_file_paths", .arr (paths.map .str))]

def ofJson? (j : Json) : Option SourceConfig :=
  match j.fields? fieldNames with
  | some [device, .str rootName, paths] =>
    match DeviceId.ofJson? device, paths.texts? with
    | some device, some paths => some ⟨device, rootName, paths.map Path.ofString⟩
    | _, _ => none
  | _ => none

end SourceConfig

namespace Verdict

def all : List Verdict := [.noErrors, .nonCriticalErrors, .criticalErrors]

def toJson (v : Verdict) : Json := .str v.code

def ofJson? (j : Json) : Option Verdict :=
  j.word?.bind fun s => all.find? (·.code = s)

end Verdict

namespace EntryKind

def all : List EntryKind := [.file, .directory]

def toJson (k : EntryKind) : Json := .str k.code

def ofJson? (j : Json) : Option EntryKind :=
  j.word?.bind fun s => all.find? (·.code = s)

end EntryKind

/-- A report for reading by others. -/
def Report.toJson (r : Report) : Json :=
  .obj [("result", r.verdict.toJson), ("errors", .arr (r.errors.map .str)),
    ("new_data_sources", .arr (r.contents.map Content.toJson))]

/-- The names of data sources, by their ids in ascending order. -/
def NameMap.toJson (m : NameMap) : Json :=
  .obj (m.map fun entry => (toString entry.1, .str entry.2))

end Casefile
