import Casefile.Proofs.Tables.WellFormed
import Casefile.Store.Relational
import Mathlib.Data.List.Basic

/-!
# Listing rows that are added together

* `SourceRow.stored` — a row of a listing as the tables hold it.
* `Rows.rootNames`, `Rows.listedSegments` — the files and the segments of images that belong to a data
  source, which are the ones that the listings show.
* `Rows.SegmentsInOrder` — the segments that are shown stand by image and number already.

Principal results: `rootNames_source`, `rootNames_file`, `rootNames_image`, `listedSegments_of_none` and
`listedSegments_image` — the rows of a new object add to the listings what belongs to the object, and
leave the rest as it is.  `logicalSources_eq_listing` and `imageSources_eq_listing` — the two listings are one,
of different rows; those of complete tables read the names off these rows.
-/

set_option autoImplicit false

namespace Casefile

/-- A row of a listing as the tables hold it. -/
def SourceRow.stored (r : SourceRow) : ObjectId × Cell :=
  (r.objectId, .text r.name)

namespace Rows

/-- The rows that tell which ids are data sources. -/
def sourceKeys (r : Rows) : Tables.SourceKeys :=
  ⟨r.objects, r.sourceInfo⟩

/-- The files that are data sources, with their names. -/
def rootNames (r : Rows) : List (ObjectId × Cell) :=
  (r.files.filter fun f => r.sourceKeys.has f.id).map fun f => (f.id, f.name)

/-- The segments of images that are data sources. -/
def listedSegments (r : Rows) : List (ObjectId × ImageNameRow) :=
  r.imageNames.filterMap fun s => (r.sourceKeys.imageOf? s).map fun id => (id, s)

/-- The segments that are shown, with their paths. -/
def segmentNames (r : Rows) : List (ObjectId × Cell) :=
  r.listedSegments.map fun s => (s.1, s.2.name)

/-- The segments that are shown, in the order of the listing. -/
def sortedSegments (r : Rows) : List (ObjectId × ImageNameRow) :=
  r.listedSegments.mergeSort Tables.segmentLe

/-- The segments that are shown stand by image, and those of an image by their numbers. -/
def SegmentsInOrder (r : Rows) : Prop :=
  r.listedSegments.Pairwise fun a b => Tables.segmentLe a b = true

/-! ## Which ids are data sources -/

variable {r a : Rows} {id : ObjectId}

theorem has_append (r a : Rows) (x : ObjectId) :
    (r ++ a).sourceKeys.has x =
      ((r.sourceInfo.any (·.id = x) || a.sourceInfo.any (·.id = x)) &&
        (r.objects.any (·.id = x) || a.objects.any (·.id = x))) := by
  unfold Tables.SourceKeys.has sourceKeys
  simp only [append_sourceInfo, append_objects, List.any_append]

/-- Rows about another object do not make an id a data source. -/
theorem About.has_other (ha : a.About id) {x : ObjectId} (hne : x ≠ id) :
    (r ++ a).sourceKeys.has x = r.sourceKeys.has x := by
  have hinfo : a.sourceInfo.any (·.id = x) = false := by
    rw [List.any_eq_false]
    intro i hi
    simp [ha.sourceInfo i hi, Ne.symm hne]
  have hobj : a.objects.any (·.id = x) = false := by
    rw [List.any_eq_false]
    intro o ho
    simp [ha.objects o ho, Ne.symm hne]
  rw [has_append, hinfo, hobj, Bool.or_false, Bool.or_false]
  rfl

/-- An object with information about a source is a data source. -/
theorem has_new {o : ObjectRow} {i : SourceInfoRow} (ho : o ∈ a.objects) (hoid : o.id = id)
    (hi : i ∈ a.sourceInfo) (hiid : i.id = id) : (r ++ a).sourceKeys.has id = true := by
  have hinfo : a.sourceInfo.any (·.id = id) = true :=
    List.any_eq_true.2 ⟨i, hi, decide_eq_true hiid⟩
  have hobj : a.objects.any (·.id = id) = true :=
    List.any_eq_true.2 ⟨o, ho, decide_eq_true hoid⟩
  rw [has_append, hinfo, hobj, Bool.or_true, Bool.or_true]
  rfl

/-- A new object without such information is none. -/
theorem WellFormed.has_new_of_no_info (h : r.WellFormed) (hinfo : a.sourceInfo = []) :
    (r ++ a).sourceKeys.has r.nextId = false := by
  have hold : r.sourceInfo.any (·.id = r.nextId) = false := by
    rw [List.any_eq_false]
    intro i hi
    have hlt : i.id < r.nextId := h.lt_nextId (h.sourceInfo i hi)
    simpa using Int.ne_of_lt hlt
  rw [has_append, hold, hinfo]
  rfl

/-! ## What a new object adds to the listings -/

/-- The earlier files are shown as before. -/
theorem WellFormed.rootNames_append (h : r.WellFormed) (ha : a.About r.nextId) :
    (r ++ a).rootNames = r.rootNames ++
      (a.files.filter fun f => (r ++ a).sourceKeys.has f.id).map fun f => (f.id, f.name) := by
  have hold : (r.files.filter fun f => (r ++ a).sourceKeys.has f.id) =
      r.files.filter fun f => r.sourceKeys.has f.id := by
    refine List.filter_congr ?_
    intro f hf
    have hlt : f.id < r.nextId := h.lt_nextId (h.files f hf)
    exact ha.has_other (Int.ne_of_lt hlt)
  unfold rootNames
  rw [append_files, List.filter_append, List.map_append, hold]

/-- The earlier segments are shown as before. -/
theorem WellFormed.listedSegments_append (h : r.WellFormed) (ha : a.About r.nextId) :
    (r ++ a).listedSegments = r.listedSegments ++
      a.imageNames.filterMap fun s =>
        ((r ++ a).sourceKeys.imageOf? s).map fun id => (id, s) := by
  have hold : (r.imageNames.filterMap fun s =>
        ((r ++ a).sourceKeys.imageOf? s).map fun id => (id, s)) =
      r.imageNames.filterMap fun s => (r.sourceKeys.imageOf? s).map fun id => (id, s) := by
    refine List.filterMap_congr ?_
    intro s hs
    obtain ⟨x, himg, hx⟩ := h.imageNames s hs
    have hlt : x < r.nextId := h.lt_nextId hx
    unfold Tables.SourceKeys.imageOf?
    rw [himg]
    simp only [ha.has_other (Int.ne_of_lt hlt)]
  unfold listedSegments
  rw [append_imageNames, List.filterMap_append, hold]

/-- The root of a new source is shown with its name. -/
theorem WellFormed.rootNames_source (h : r.WellFormed) (request : SourceRequest) (name : String) :
    (r ++ Rows.source r.nextId request name).rootNames =
      r.rootNames ++ [(r.nextId, .text name)] := by
  have hhas : (r ++ Rows.source r.nextId request name).sourceKeys.has r.nextId = true :=
    has_new (List.mem_singleton.2 rfl) rfl (List.mem_singleton.2 rfl) rfl
  rw [h.rootNames_append (source_about _ _ _)]
  congr 1
  rw [List.filter_eq_self.2]
  · rfl
  · intro f hf
    rw [(source_about _ request name).files f hf]
    exact hhas

/-- A new file or directory is not shown. -/
theorem WellFormed.rootNames_file (h : r.WellFormed) (request : FileRequest) (path : String) :
    (r ++ Rows.file r.nextId request path).rootNames = r.rootNames := by
  have hhas : (r ++ Rows.file r.nextId request path).sourceKeys.has r.nextId = false :=
    h.has_new_of_no_info rfl
  rw [h.rootNames_append (file_about _ _ _), List.filter_eq_nil_iff.2]
  · exact List.append_nil _
  · intro f hf
    rw [(file_about _ request path).files f hf, hhas]
    decide

theorem WellFormed.rootNames_image (h : r.WellFormed) (request : ImageRequest) :
    (r ++ Rows.image r.nextId request).rootNames = r.rootNames := by
  rw [h.rootNames_append (image_about _ _)]
  simp [Rows.image]

/-- An object without segments is not shown among the images. -/
theorem WellFormed.listedSegments_of_none (h : r.WellFormed) (ha : a.About r.nextId)
    (hnone : a.imageNames = []) : (r ++ a).listedSegments = r.listedSegments := by
  rw [h.listedSegments_append ha, hnone]
  exact List.append_nil _

/-- All segments of a new image are shown. -/
theorem WellFormed.listedSegments_image (h : r.WellFormed) (request : ImageRequest) :
    (r ++ Rows.image r.nextId request).listedSegments =
      r.listedSegments ++ (segments r.nextId 0 request.paths).map fun s => (r.nextId, s) := by
  have hhas : (r ++ Rows.image r.nextId request).sourceKeys.has r.nextId = true :=
    has_new (List.mem_singleton.2 rfl) rfl (List.mem_singleton.2 rfl) rfl
  rw [h.listedSegments_append (image_about _ _)]
  congr 1
  rw [← List.filterMap_eq_map]
  refine List.filterMap_congr ?_
  intro s hs
  have himg : s.image = .int r.nextId := segments_image r.nextId request.paths 0 s hs
  unfold Tables.SourceKeys.imageOf?
  rw [himg]
  simp only [hhas, if_true]
  rfl

/-- Rows that show the same segments show the same names. -/
theorem segmentNames_congr {r r' : Rows} (h : r'.listedSegments = r.listedSegments) :
    r'.segmentNames = r.segmentNames := by
  unfold segmentNames
  rw [h]

/-- The segments go by their paths. -/
theorem segments_stored (id : ObjectId) :
    ∀ (paths : List String) (first : Nat),
      ((segments id first paths).map fun s => (id, s.name)) =
        (paths.map fun path => (⟨id, path⟩ : SourceRow)).map SourceRow.stored
  | [], _ => rfl
  | path :: paths, first => by
    simp only [segments, List.map_cons, segments_stored id paths (first + 1)]
    rfl

/-- The segments of a new image are shown with their paths, in order. -/
theorem WellFormed.segmentNames_image (h : r.WellFormed) (request : ImageRequest) :
    (r ++ Rows.image r.nextId request).segmentNames = r.segmentNames ++
      (request.paths.map fun path => (⟨r.nextId, path⟩ : SourceRow)).map SourceRow.stored := by
  unfold segmentNames
  rw [h.listedSegments_image, List.map_append, List.map_map, ← segments_stored _ _ 0]
  rfl

/-! ## The order of the segments -/

theorem SegmentsInOrder.same {r' : Rows} (h : r.SegmentsInOrder)
    (hsame : r'.listedSegments = r.listedSegments) : r'.SegmentsInOrder := by
  unfold SegmentsInOrder
  rw [hsame]
  exact h

theorem segments_number (id : ObjectId) :
    ∀ (paths : List String) (first : Nat), ∀ s ∈ segments id first paths,
      ∃ n : Nat, first ≤ n ∧ s.sequence = .int n
  | [], _, s, hs => by cases hs
  | path :: paths, first, s, hs => by
    rcases List.mem_cons.1 hs with rfl | hs
    · exact ⟨first, Nat.le_refl _, rfl⟩
    · obtain ⟨n, hn, hseq⟩ := segments_number id paths (first + 1) s hs
      exact ⟨n, by omega, hseq⟩

theorem segments_inOrder (id : ObjectId) :
    ∀ (paths : List String) (first : Nat),
      ((segments id first paths).map fun s => (id, s)).Pairwise
        fun a b => Tables.segmentLe a b = true
  | [], _ => List.Pairwise.nil
  | path :: paths, first => by
    refine List.pairwise_cons.2 ⟨?_, segments_inOrder id paths (first + 1)⟩
    intro e he
    obtain ⟨s, hs, rfl⟩ := List.mem_map.1 he
    obtain ⟨n, hn, hseq⟩ := segments_number id paths (first + 1) s hs
    have hle : Cell.le (.int first) (.int n) = true := by
      unfold Cell.le
      simp only [decide_eq_true_eq]
      omega
    simp [Tables.segmentLe, hseq, hle]

theorem WellFormed.listed_lt (h : r.WellFormed) {e : ObjectId × ImageNameRow}
    (he : e ∈ r.listedSegments) : e.1 < r.nextId := by
  obtain ⟨s, hs, hsome⟩ := List.mem_filterMap.1 he
  obtain ⟨x, himg, hx⟩ := h.imageNames s hs
  unfold Tables.SourceKeys.imageOf? at hsome
  rw [himg] at hsome
  simp only at hsome
  split at hsome
  · cases hsome
    exact h.lt_nextId hx
  · cases hsome

/-- The segments of a new image come behind all others. -/
theorem WellFormed.segmentsInOrder_image (h : r.WellFormed) (ho : r.SegmentsInOrder)
    (request : ImageRequest) : (r ++ Rows.image r.nextId request).SegmentsInOrder := by
  unfold SegmentsInOrder
  rw [h.listedSegments_image, List.pairwise_append]
  refine ⟨ho, segments_inOrder r.nextId request.paths 0, ?_⟩
  intro e he e' he'
  obtain ⟨s, _, rfl⟩ := List.mem_map.1 he'
  have hlt : e.1 < r.nextId := h.listed_lt he
  simp [Tables.segmentLe, hlt]

end Rows

/-! ## The two listings -/

namespace Tables

variable {t : Tables}

/-- What a listing reads off one table, once that and those for the sources are there. -/
def listing (t : Tables) (table : String) (isThere : Bool) (cells : List (ObjectId × Cell)) :
    Except Failure (List SourceRow) :=
  if isThere = false then .error (missing table)
  else if t.objects.isSome = false then .error (missing objectsName)
  else if t.sourceInfo.isSome = false then .error (missing sourceInfoName)
  else readNames cells

theorem logicalSources_eq_listing (t : Tables) :
    t.logicalSources = t.listing filesName t.files.isSome t.rows.rootNames := by
  unfold logicalSources listing sourceKeys Rows.rootNames Rows.sourceKeys rows
  cases t.files <;> cases t.objects <;> cases t.sourceInfo <;> simp

theorem imageSources_eq_listing (t : Tables) :
    t.imageSources = t.listing imageNamesName t.imageNames.isSome
      (t.rows.sortedSegments.map fun s => (s.1, s.2.name)) := by
  unfold imageSources listing sourceKeys Rows.sortedSegments Rows.listedSegments Rows.sourceKeys rows
  cases t.imageNames <;> cases t.objects <;> cases t.sourceInfo <;> simp

theorem listing_of_there {table : String} {isThere : Bool} {cells : List (ObjectId × Cell)}
    (hthere : isThere = true) (hobjects : t.objects.isSome = true) (hinfo : t.sourceInfo.isSome = true) :
    t.listing table isThere cells = readNames cells := by
  simp [listing, hthere, hobjects, hinfo]

theorem logicalSources_eq (h : t.Complete) : t.logicalSources = readNames t.rows.rootNames := by
  rw [logicalSources_eq_listing]
  apply listing_of_there
  · rw [h.files, Option.isSome_some]
  · rw [h.objects, Option.isSome_some]
  · rw [h.sourceInfo, Option.isSome_some]

/-- If the segments stand in order the listing shows them as they stand. -/
theorem imageSources_eq (h : t.Complete) (ho : t.rows.SegmentsInOrder) :
    t.imageSources = readNames t.rows.segmentNames := by
  have hsort : t.rows.sortedSegments = t.rows.listedSegments := List.mergeSort_of_pairwise ho
  rw [imageSources_eq_listing, hsort]
  apply listing_of_there
  · rw [h.imageNames, Option.isSome_some]
  · rw [h.objects, Option.isSome_some]
  · rw [h.sourceInfo, Option.isSome_some]

/-- Names that are text can be read. -/
theorem readNames_stored (rows : List SourceRow) :
    readNames (rows.map SourceRow.stored) = .ok rows := by
  induction rows with
  | nil => rfl
  | cons r rows ih => simp only [List.map_cons, readNames, SourceRow.stored, Cell.readText, ih]

end Tables

namespace Relational

variable {db : Db}

/-- The database lists what has been committed, and stays as it is. -/
theorem logicalSources_eq (hopen : db.closed = false) :
    store.logicalSources db = (.ofExcept db.committed.logicalSources, db) := by
  simp [store, Db.logicalSources, Db.whileOpen, hopen]

theorem imageSources_eq (hopen : db.closed = false) :
    store.imageSources db = (.ofExcept db.committed.imageSources, db) := by
  simp [store, Db.imageSources, Db.whileOpen, hopen]

end Relational

end Casefile
