import Casefile.Tables.Listing
import Casefile.Tables.Schema

/-!
# Rows that are added together

* `Rows` — rows for the five tables that hold a case; `Tables.plus` — the tables with rows added
  behind those they have.
* `Rows.source`, `Rows.file`, `Rows.image` — what is recorded about one object.
* `Rows.Numbered` — the objects have the ids from 1 on, and no row is about a later one.

Principal results: `writeSource_eq`, `writeFile_eq`, `writeImage_eq` — on numbered tables recording an
object cannot fail, and adds exactly the rows of the object under the next id.
-/

set_option autoImplicit false

namespace Casefile

/-- Rows for the tables that hold a case. -/
structure Rows where
  objects : List ObjectRow := []
  sourceInfo : List SourceInfoRow := []
  files : List FileRow := []
  filePaths : List FilePathRow := []
  imageNames : List ImageNameRow := []
  deriving DecidableEq, Repr

namespace Rows

/-- Some rows behind others, table by table. -/
def append (a b : Rows) : Rows :=
  ⟨a.objects ++ b.objects, a.sourceInfo ++ b.sourceInfo, a.files ++ b.files,
    a.filePaths ++ b.filePaths, a.imageNames ++ b.imageNames⟩

instance : Append Rows := ⟨append⟩

@[simp] theorem append_objects (a b : Rows) : (a ++ b).objects = a.objects ++ b.objects := rfl

@[simp] theorem append_sourceInfo (a b : Rows) :
    (a ++ b).sourceInfo = a.sourceInfo ++ b.sourceInfo := rfl

@[simp] theorem append_files (a b : Rows) : (a ++ b).files = a.files ++ b.files := rfl

@[simp] theorem append_filePaths (a b : Rows) :
    (a ++ b).filePaths = a.filePaths ++ b.filePaths := rfl

@[simp] theorem append_imageNames (a b : Rows) :
    (a ++ b).imageNames = a.imageNames ++ b.imageNames := rfl

theorem append_assoc (a b c : Rows) : a ++ b ++ c = a ++ (b ++ c) := by
  show append (append a b) c = append a (append b c)
  simp only [append, List.append_assoc]

/-- The id after those of the objects. -/
def nextId (r : Rows) : ObjectId :=
  (r.objects.length : Int) + 1

/-- The objects have the ids from 1 on, and what the other tables hold is about them. -/
structure Numbered (r : Rows) : Prop where
  objects : r.objects.map (·.id) = (List.range r.objects.length).map fun k : Nat => (k : Int) + 1
  sourceInfo : ∀ x ∈ r.sourceInfo, x.id < r.nextId
  files : ∀ x ∈ r.files, x.id < r.nextId
  filePaths : ∀ x ∈ r.filePaths, x.id < r.nextId

/-- What is recorded about the root of a logical source. -/
def source (id : ObjectId) (request : SourceRequest) (name : String) : Rows where
  objects := [⟨id, .null, .int ObjectRow.fileType⟩]
  sourceInfo := [⟨id, .text request.device.text, .text request.timeZone, .int request.addedAt⟩]
  files := [⟨id, .int id, .int FileCodes.sourceRoot.type, .text name,
    .int FileCodes.sourceRoot.metaType, .int FileCodes.sourceRoot.dirType, .int 0, .null,
    .text "/"⟩]

/-- What is recorded about a file or directory that is shown under `parentPath`. -/
def file (id : ObjectId) (request : FileRequest) (parentPath : String) : Rows where
  objects := [⟨id, .int request.parent, .int ObjectRow.fileType⟩]
  files := [⟨id, .int request.source, .int (FileCodes.ofKind request.entry.kind).type,
    .text request.entry.name, .int (FileCodes.ofKind request.entry.kind).metaType,
    .int (FileCodes.ofKind request.entry.kind).dirType, .int request.entry.size,
    .ofInt? request.entry.modified, .text parentPath⟩]
  filePaths := [⟨id, .text request.entry.path.display⟩]

/-- The segments of an image from a given number on. -/
def segments (id : ObjectId) (first : Nat) : List String → List ImageNameRow
  | [] => []
  | path :: paths => ⟨.int id, .int first, .text path⟩ :: segments id (first + 1) paths

/-- What is recorded about an image. -/
def image (id : ObjectId) (request : ImageRequest) : Rows where
  objects := [⟨id, .null, .int ObjectRow.imageType⟩]
  sourceInfo := [⟨id, .text request.device.text, .text request.timeZone, .int request.addedAt⟩]
  imageNames := segments id 0 request.paths

/-! ## Numbered rows -/

theorem Numbered.lt_nextId {r : Rows} (h : r.Numbered) {o : ObjectRow} (ho : o ∈ r.objects) :
    1 ≤ o.id ∧ o.id < r.nextId := by
  have hm : o.id ∈ r.objects.map (·.id) := List.mem_map_of_mem ho
  rw [h.objects] at hm
  obtain ⟨k, hk, he⟩ := List.mem_map.1 hm
  have hlt : k < r.objects.length := List.mem_range.1 hk
  have hid : (k : Int) + 1 = o.id := he
  unfold nextId
  lia

/-- The largest id, on which the database bases the next one, is the number of objects. -/
theorem Numbered.nextId_eq {r : Rows} (h : r.Numbered) : Tables.nextId r.objects = r.nextId := by
  unfold Tables.nextId nextId
  rw [h.objects]
  cases hn : r.objects.length with
  | zero => rfl
  | succ n =>
    have hmax : ((List.range (n + 1)).map fun k : Nat => (k : Int) + 1).max? = some ((n : Int) + 1) := by
      rw [List.max?_eq_some_iff]
      refine ⟨List.mem_map.2 ⟨n, by simp, rfl⟩, ?_⟩
      intro b hb
      obtain ⟨k, hk, rfl⟩ := List.mem_map.1 hb
      have := List.mem_range.1 hk
      omega
    rw [hmax]
    push_cast
    rfl

end Rows

/-! ## Tables and their rows -/

namespace Tables

/-- The rows in the tables; a table that is missing has none. -/
def rows (t : Tables) : Rows :=
  ⟨t.objects.getD [], t.sourceInfo.getD [], t.files.getD [], t.filePaths.getD [],
    t.imageNames.getD []⟩

/-- No table that holds a case is missing. -/
structure Complete (t : Tables) : Prop where
  objects : t.objects = some t.rows.objects
  sourceInfo : t.sourceInfo = some t.rows.sourceInfo
  files : t.files = some t.rows.files
  filePaths : t.filePaths = some t.rows.filePaths
  imageNames : t.imageNames = some t.rows.imageNames

/-- The tables with rows added behind those they have. -/
def plus (t : Tables) (r : Rows) : Tables where
  objects := t.objects.map (· ++ r.objects)
  sourceInfo := t.sourceInfo.map (· ++ r.sourceInfo)
  files := t.files.map (· ++ r.files)
  filePaths := t.filePaths.map (· ++ r.filePaths)
  imageNames := t.imageNames.map (· ++ r.imageNames)
  versions := t.versions

variable {t : Tables} {r : Rows}

theorem rows_plus (h : t.Complete) (r : Rows) : (t.plus r).rows = t.rows ++ r := by
  show _ = Rows.append t.rows r
  simp only [rows, plus, Rows.append]
  rw [h.objects, h.sourceInfo, h.files, h.filePaths, h.imageNames]
  simp only [Option.map_some, Option.getD_some]

theorem Complete.plus (h : t.Complete) (r : Rows) : (t.plus r).Complete := by
  constructor <;> rw [rows_plus h]
  · simp only [Tables.plus, h.objects, Option.map_some, Rows.append_objects]
  · simp only [Tables.plus, h.sourceInfo, Option.map_some, Rows.append_sourceInfo]
  · simp only [Tables.plus, h.files, Option.map_some, Rows.append_files]
  · simp only [Tables.plus, h.filePaths, Option.map_some, Rows.append_filePaths]
  · simp only [Tables.plus, h.imageNames, Option.map_some, Rows.append_imageNames]

theorem plus_plus (a b : Rows) : (t.plus a).plus b = t.plus (a ++ b) := by
  simp only [plus, Option.map_map, Rows.append_objects, Rows.append_sourceInfo, Rows.append_files,
    Rows.append_filePaths, Rows.append_imageNames]
  congr 1 <;> congr 1 <;> funext x <;> simp [Function.comp, List.append_assoc]

/-! ## Writing one row -/

theorem insertObject_eq (h : t.Complete) (hn : t.rows.Numbered) (parent : Cell) (type : Int) :
    t.insertObject parent type =
      .ok (t.rows.nextId, t.plus { objects := [⟨t.rows.nextId, parent, .int type⟩] }) := by
  have hlt : ∀ o ∈ t.rows.objects, o.id < t.rows.nextId := fun o ho => (hn.lt_nextId ho).2
  unfold insertObject
  rw [h.objects]
  simp only [hn.nextId_eq]
  rw [insertByKey_of_lt ObjectRow.id _ _ hlt]
  simp [plus, h.objects]

theorem insertSourceInfo_eq (h : t.Complete) (row : SourceInfoRow)
    (hlt : ∀ x ∈ t.rows.sourceInfo, x.id < row.id) :
    t.insertSourceInfo row = .ok (t.plus { sourceInfo := [row] }) := by
  unfold insertSourceInfo
  rw [h.sourceInfo]
  simp only
  rw [insertByKey_of_lt SourceInfoRow.id _ _ hlt]
  simp [plus, h.sourceInfo]

theorem insertFile_eq (h : t.Complete) (row : FileRow) (hlt : ∀ x ∈ t.rows.files, x.id < row.id) :
    t.insertFile row = .ok (t.plus { files := [row] }) := by
  unfold insertFile
  rw [h.files]
  simp only
  rw [insertByKey_of_lt FileRow.id _ _ hlt]
  simp [plus, h.files]

theorem insertFilePath_eq (h : t.Complete) (row : FilePathRow)
    (hlt : ∀ x ∈ t.rows.filePaths, x.id < row.id) :
    t.insertFilePath row = .ok (t.plus { filePaths := [row] }) := by
  unfold insertFilePath
  rw [h.filePaths]
  simp only
  rw [insertByKey_of_lt FilePathRow.id _ _ hlt]
  simp [plus, h.filePaths]

theorem insertImageName_eq (h : t.Complete) (row : ImageNameRow) :
    t.insertImageName row = .ok (t.plus { imageNames := [row] }) := by
  unfold insertImageName
  rw [h.imageNames]
  simp [plus, h.imageNames]

theorem writeSegments_eq (image : ObjectId) :
    ∀ (paths : List String) (first : Nat) (t : Tables), t.Complete →
      writeSegments image first paths t =
        (.ok (), t.plus { imageNames := Rows.segments image first paths })
  | [], first, t, _ => by
    have he : t.plus {} = t := by simp [plus]
    simp only [writeSegments, Rows.segments]
    rw [he]
  | path :: paths, first, t, h => by
    simp only [writeSegments, insertImageName_eq h, Rows.segments]
    rw [writeSegments_eq image paths (first + 1) _ (h.plus _), plus_plus]
    rfl

/-! ## Recording one object -/

/-- **Recording a source cannot fail**, and adds the rows of its root under the next id. -/
theorem writeSource_eq (h : t.Complete) (hn : t.rows.Numbered) (request : SourceRequest)
    (name : String) :
    writeSource request name t =
      (.ok t.rows.nextId, t.plus (Rows.source t.rows.nextId request name)) := by
  unfold writeSource
  rw [insertObject_eq h hn]
  simp only
  rw [insertSourceInfo_eq (h.plus _) _ (by rw [rows_plus h]; simpa using hn.sourceInfo)]
  simp only
  rw [plus_plus, insertFile_eq (h.plus _) _ (by rw [rows_plus h]; simpa using hn.files)]
  simp only
  rw [plus_plus]
  rfl

/-- **Recording a file or directory cannot fail**, and adds its rows under the next id. -/
theorem writeFile_eq (h : t.Complete) (hn : t.rows.Numbered) (request : FileRequest)
    (parentPath : String) :
    writeFile request parentPath t =
      (.ok t.rows.nextId, t.plus (Rows.file t.rows.nextId request parentPath)) := by
  unfold writeFile
  rw [insertObject_eq h hn]
  simp only
  rw [insertFile_eq (h.plus _) _ (by rw [rows_plus h]; simpa using hn.files)]
  simp only
  rw [plus_plus, insertFilePath_eq (h.plus _) _ (by rw [rows_plus h]; simpa using hn.filePaths)]
  simp only
  rw [plus_plus]
  rfl

/-- **Recording an image cannot fail**, and adds its rows under the next id. -/
theorem writeImage_eq (h : t.Complete) (hn : t.rows.Numbered) (request : ImageRequest) :
    writeImage request t =
      (.ok t.rows.nextId, t.plus (Rows.image t.rows.nextId request)) := by
  unfold writeImage
  rw [insertObject_eq h hn]
  simp only
  rw [insertSourceInfo_eq (h.plus _) _ (by rw [rows_plus h]; simpa using hn.sourceInfo)]
  simp only
  rw [plus_plus, writeSegments_eq _ _ _ _ (h.plus _), plus_plus]
  rfl

end Tables

end Casefile
