import Casefile.Proofs.NameMap
import Casefile.Proofs.Tables.Listing
import Casefile.Proofs.Tables.Values
import Mathlib.Data.List.Forall2

/-!
# Listing a damaged case

Others may have dropped tables of a case, put any rows into those that are left, and stored names that are no
text.

* `Tables.IsSource`, `Tables.SelectsFile`, `Tables.SelectsSegment` — which rows the listings show.
* `Tables.Listable` — no table that the listings need is missing.  `Tables.Legible` — every row that they show
  has a name that can be read.
* `Tables.SelectsAlike` — two cases show the same rows.
* `Tables.names` — the names of a case, read off its tables.

Principal results: `names_ok_iff` — there are names exactly if the tables are listable and legible.
`names_of_illegible_file`, `names_of_illegible_segment` — a name that cannot be read is the failure.
`names_congr` — rows that are not shown do not matter.  `names_least` — an image goes by a segment of its that no
other comes before.  `load_all_or_nothing` — so it is for the database.
-/

set_option autoImplicit false

namespace Casefile

/-- Of the segments of an image, none comes before the first that is shown. -/
theorem Rows.sequence_le_of_find? {r : Rows} {id : ObjectId} {e : ObjectId × ImageNameRow}
    (hfind : r.sortedSegments.find? (·.1 = id) = some e) {s : ImageNameRow}
    (hs : (id, s) ∈ r.listedSegments) : e.2.sequence.le s.sequence = true := by
  obtain ⟨hid, before, after, hsorted, hbefore⟩ := List.find?_eq_some_iff_append.1 hfind
  have hmem : (id, s) ∈ before ++ e :: after := by
    rw [← hsorted]
    exact List.mem_mergeSort.2 hs
  have horder : (before ++ e :: after).Pairwise fun a b => Tables.segmentLe a b = true := by
    rw [← hsorted]
    refine List.pairwise_mergeSort ?_ ?_ _
    · intro a b c
      exact Tables.segmentLe_trans
    · exact Tables.segmentLe_total
  have hle : Tables.segmentLe e (id, s) = true := by
    rcases List.mem_append.1 hmem with hmem | hmem
    · exact absurd (hbefore _ hmem) (by simp)
    · rcases List.mem_cons.1 hmem with heq | hmem
      · rw [heq]
        simpa using Tables.segmentLe_total e e
      · exact (List.pairwise_cons.1 (List.pairwise_append.1 horder).2.1).1 _ hmem
  rcases Tables.segmentLe_iff.1 hle with hlt | ⟨_, hle⟩
  · have heq : e.1 = id := by simpa using hid
    exact absurd hlt (by lia)
  · exact hle

theorem Reply.ofExcept_eq_ok_iff {α : Type} {answer : Except Failure α} {a : α} :
    Reply.ofExcept answer = .ok a ↔ answer = .ok a := by
  cases answer <;> simp

namespace Tables

variable {t t' : Tables} {id : ObjectId}

/-! ## Which rows are shown -/

/-- There is an object of this id, and information about it as a data source. -/
def IsSource (t : Tables) (id : ObjectId) : Prop :=
  (∃ o ∈ t.rows.objects, o.id = id) ∧ ∃ i ∈ t.rows.sourceInfo, i.id = id

instance (t : Tables) (id : ObjectId) : Decidable (t.IsSource id) :=
  inferInstanceAs (Decidable (_ ∧ _))

/-- The file is one that the listing of logical sources shows. -/
def SelectsFile (t : Tables) (f : FileRow) : Prop :=
  f ∈ t.rows.files ∧ t.IsSource f.id

/-- The segment is one that the listing of images shows, as one of the image of this id. -/
def SelectsSegment (t : Tables) (id : ObjectId) (s : ImageNameRow) : Prop :=
  s ∈ t.rows.imageNames ∧ s.image = .int id ∧ t.IsSource id

theorem has_eq (t : Tables) (id : ObjectId) : t.rows.sourceKeys.has id = decide (t.IsSource id) := by
  rw [Bool.eq_iff_iff, decide_eq_true_iff]
  simp [SourceKeys.has, Rows.sourceKeys, IsSource, and_comm]

/-- A table with a row in it is there. -/
theorem isSome_of_mem {α : Type} {table : Option (List α)} {row : α} (h : row ∈ table.getD []) :
    table.isSome = true := by
  cases table with
  | none => cases h
  | some rows => rfl

theorem IsSource.isSome_objects (h : t.IsSource id) : t.objects.isSome = true := by
  obtain ⟨⟨o, ho, _⟩, _⟩ := h
  exact isSome_of_mem ho

theorem IsSource.isSome_sourceInfo (h : t.IsSource id) : t.sourceInfo.isSome = true := by
  obtain ⟨_, i, hi, _⟩ := h
  exact isSome_of_mem hi

theorem mem_rootNames {c : ObjectId × Cell} :
    c ∈ t.rows.rootNames ↔ ∃ f, t.SelectsFile f ∧ c = (f.id, f.name) := by
  simp [Rows.rootNames, SelectsFile, has_eq, and_assoc, eq_comm]

theorem mem_listedSegments {s : ImageNameRow} :
    (id, s) ∈ t.rows.listedSegments ↔ t.SelectsSegment id s := by
  unfold Rows.listedSegments SelectsSegment
  rw [List.mem_filterMap]
  constructor
  · rintro ⟨s', hs', hsome⟩
    obtain ⟨id', himage, heq⟩ := Option.map_eq_some_iff.1 hsome
    cases heq
    unfold SourceKeys.imageOf? at himage
    split at himage
    · rename_i k hk
      split at himage
      · rename_i hhas
        cases himage
        exact ⟨hs', hk, by simpa [has_eq] using hhas⟩
      · cases himage
    · cases himage
  · rintro ⟨hs, himage, hsource⟩
    refine ⟨s, hs, ?_⟩
    simp [SourceKeys.imageOf?, himage, has_eq, hsource]

/-! ## Reading names -/

section ReadNames

variable {cells : List (ObjectId × Cell)} {rows : List SourceRow}

/-- A name that cannot be read is the only way in which reading names fails. -/
theorem readNames_cases (cells : List (ObjectId × Cell)) :
    (∃ rows, readNames cells = .ok rows) ∨ ∃ text, readNames cells = .error (.malformedRow text) := by
  induction cells with
  | nil => exact .inl ⟨[], rfl⟩
  | cons c cells ih =>
    obtain ⟨id, cell⟩ := c
    unfold readNames
    cases cell.readText with
    | error why => exact .inr ⟨_, rfl⟩
    | ok name =>
      rcases ih with ⟨rows, hrows⟩ | ⟨text, hfails⟩
      · exact .inl ⟨⟨id, name⟩ :: rows, by simp [hrows]⟩
      · exact .inr ⟨text, by simp [hfails]⟩

/-- **Names are read one by one**: each from its cell, and in the same order. -/
theorem readNames_eq_ok_iff : readNames cells = .ok rows ↔
    List.Forall₂ (fun c r => c.1 = r.objectId ∧ c.2.Spells r.name) cells rows := by
  induction cells generalizing rows with
  | nil => simp [readNames, eq_comm]
  | cons c cells ih =>
    obtain ⟨id, cell⟩ := c
    rw [List.forall₂_cons_left_iff, readNames]
    constructor
    · intro h
      cases hread : cell.readText with
      | error why => simp [hread] at h
      | ok name =>
        cases hrest : readNames cells with
        | error e => simp [hread, hrest] at h
        | ok rest =>
          have hrows : (⟨id, name⟩ : SourceRow) :: rest = rows := by simpa [hread, hrest] using h
          exact ⟨_, _, ⟨rfl, Cell.readText_eq_ok_iff.1 hread⟩, ih.1 hrest, hrows.symm⟩
    · rintro ⟨⟨id', name⟩, rest, ⟨rfl, hname⟩, hrest, rfl⟩
      simp [Cell.readText_eq_ok_iff.2 hname, ih.2 hrest]

theorem readNames_ok_iff : (∃ rows, readNames cells = .ok rows) ↔ ∀ c ∈ cells, c.2.Legible := by
  simp only [readNames_eq_ok_iff]
  induction cells with
  | nil => simp
  | cons c cells ih =>
    rw [List.forall_mem_cons, ← ih]
    constructor
    · rintro ⟨rows, h⟩
      obtain ⟨row, rest, ⟨_, hname⟩, hrest, _⟩ := List.forall₂_cons_left_iff.1 h
      exact ⟨⟨row.name, hname⟩, rest, hrest⟩
    · rintro ⟨⟨name, hname⟩, rest, hrest⟩
      exact ⟨⟨c.1, name⟩ :: rest, .cons ⟨rfl, hname⟩ hrest⟩

/-- Every row is for the id of a cell. -/
theorem mem_of_readNames (h : readNames cells = .ok rows) {r : SourceRow} (hr : r ∈ rows) :
    ∃ c ∈ cells, c.1 = r.objectId := by
  induction readNames_eq_ok_iff.1 h with
  | nil => cases hr
  | @cons c r' cells rows hhead htail ih =>
    rcases List.mem_cons.1 hr with rfl | hr
    · exact ⟨c, List.mem_cons_self, hhead.1⟩
    · obtain ⟨c', hc', hid⟩ := ih (readNames_eq_ok_iff.2 htail) hr
      exact ⟨c', List.mem_cons_of_mem c hc', hid⟩

/-- The first row of an id has the name in the first cell of the id. -/
theorem firstName?_of_readNames (h : readNames cells = .ok rows) {c : ObjectId × Cell}
    (hfind : cells.find? (·.1 = id) = some c) :
    ∃ name, c.2.Spells name ∧ NameMap.firstName? rows id = some name := by
  induction readNames_eq_ok_iff.1 h with
  | nil => cases hfind
  | @cons c' r cells rows hhead htail ih =>
    obtain ⟨hid, hname⟩ := hhead
    by_cases hthis : c'.1 = id
    · have hc : c' = c := by simpa [hthis] using hfind
      subst hc
      exact ⟨r.name, hname, by simp [NameMap.firstName?, ← hid, hthis]⟩
    · obtain ⟨name, hspells, hfirst⟩ := ih (readNames_eq_ok_iff.2 htail) (by simpa [hthis] using hfind)
      refine ⟨name, hspells, ?_⟩
      rw [← hfirst]
      simp [NameMap.firstName?, ← hid, hthis]

end ReadNames

/-! ## The two listings -/

section Listing

variable {table : String} {isThere : Bool} {cells : List (ObjectId × Cell)} {rows : List SourceRow}

theorem listing_eq_ok_iff : t.listing table isThere cells = .ok rows ↔
    isThere = true ∧ t.objects.isSome = true ∧ t.sourceInfo.isSome = true ∧ readNames cells = .ok rows := by
  unfold listing
  cases isThere <;> cases t.objects <;> cases t.sourceInfo <;> simp

theorem listing_congr (hobjects : t.objects.isSome = t'.objects.isSome)
    (hinfo : t.sourceInfo.isSome = t'.sourceInfo.isSome) :
    t.listing table isThere cells = t'.listing table isThere cells := by
  simp only [listing, hobjects, hinfo]

theorem listing_ok_iff : (∃ rows, t.listing table isThere cells = .ok rows) ↔
    isThere = true ∧ t.objects.isSome = true ∧ t.sourceInfo.isSome = true ∧ ∀ c ∈ cells, c.2.Legible := by
  simp only [listing_eq_ok_iff, ← readNames_ok_iff, exists_and_left]

/-- If the tables are there, it is only for a name that cannot be read that a listing fails. -/
theorem listing_of_illegible {c : ObjectId × Cell} (hthere : isThere = true) (hsource : t.IsSource id)
    (hc : c ∈ cells) (hnot : ¬ c.2.Legible) :
    ∃ text, t.listing table isThere cells = .error (.malformedRow text) := by
  rw [listing_of_there hthere hsource.isSome_objects hsource.isSome_sourceInfo]
  rcases readNames_cases cells with hok | hfails
  · exact absurd (readNames_ok_iff.1 hok c hc) hnot
  · exact hfails

end Listing

/-- No table that the listings need is missing. -/
structure Listable (t : Tables) : Prop where
  objects : t.objects.isSome = true
  sourceInfo : t.sourceInfo.isSome = true
  files : t.files.isSome = true
  imageNames : t.imageNames.isSome = true

/-- Every row that is shown has a name that can be read. -/
structure Legible (t : Tables) : Prop where
  files : ∀ f, t.SelectsFile f → f.name.Legible
  segments : ∀ id s, t.SelectsSegment id s → s.name.Legible

/-- The same tables are there for the listings, and the same rows are shown of them. -/
structure SelectsAlike (t t' : Tables) : Prop where
  objects : t.objects.isSome = t'.objects.isSome
  sourceInfo : t.sourceInfo.isSome = t'.sourceInfo.isSome
  files : t.files.isSome = t'.files.isSome
  imageNames : t.imageNames.isSome = t'.imageNames.isSome
  selectedFiles :
    (t.rows.files.filter fun f => t.IsSource f.id) = t'.rows.files.filter fun f => t'.IsSource f.id
  selectedSegments : t.rows.listedSegments = t'.rows.listedSegments

theorem forall_mem_rootNames {p : Cell → Prop} :
    (∀ c ∈ t.rows.rootNames, p c.2) ↔ ∀ f, t.SelectsFile f → p f.name := by
  constructor
  · intro h f hf
    exact h _ (mem_rootNames.2 ⟨f, hf, rfl⟩)
  · intro h c hc
    obtain ⟨f, hf, rfl⟩ := mem_rootNames.1 hc
    exact h f hf

theorem mem_sortedSegments {s : ImageNameRow} :
    (id, s) ∈ t.rows.sortedSegments ↔ t.SelectsSegment id s := by
  rw [Rows.sortedSegments, List.mem_mergeSort, mem_listedSegments]

theorem logicalSources_ok_iff : (∃ logical, t.logicalSources = .ok logical) ↔
    t.files.isSome = true ∧ t.objects.isSome = true ∧ t.sourceInfo.isSome = true ∧
      ∀ f, t.SelectsFile f → f.name.Legible := by
  rw [logicalSources_eq_listing, listing_ok_iff, forall_mem_rootNames]

theorem imageSources_ok_iff : (∃ images, t.imageSources = .ok images) ↔
    t.imageNames.isSome = true ∧ t.objects.isSome = true ∧ t.sourceInfo.isSome = true ∧
      ∀ id s, t.SelectsSegment id s → s.name.Legible := by
  rw [imageSources_eq_listing, listing_ok_iff, List.forall_mem_map]
  simp only [Prod.forall, mem_sortedSegments]

/-! ## The names of a case -/

/-- The names of a case, read off its tables; the first failure is the answer. -/
def names (naming : Naming) (t : Tables) : Except Failure NameMap :=
  match t.logicalSources with
  | .error e => .error e
  | .ok logical =>
    match t.imageSources with
    | .error e => .error e
    | .ok images => .ok (NameMap.merge naming logical images)

variable {naming : Naming} {m : NameMap}

theorem names_eq_ok_iff : t.names naming = .ok m ↔
    ∃ logical images, t.logicalSources = .ok logical ∧ t.imageSources = .ok images ∧
      m = NameMap.merge naming logical images := by
  unfold names
  cases t.logicalSources <;> cases t.imageSources <;> simp [eq_comm]

/-- **There are names exactly if** all tables for the listings are there and every row that is shown has a name
that can be read. -/
theorem names_ok_iff : (∃ m, t.names naming = .ok m) ↔ t.Listable ∧ t.Legible := by
  constructor
  · rintro ⟨m, hm⟩
    obtain ⟨logical, images, hlogical, himages, _⟩ := names_eq_ok_iff.1 hm
    obtain ⟨hfiles, hobjects, hinfo, hroots⟩ := logicalSources_ok_iff.1 ⟨logical, hlogical⟩
    obtain ⟨himageNames, _, _, hsegments⟩ := imageSources_ok_iff.1 ⟨images, himages⟩
    exact ⟨⟨hobjects, hinfo, hfiles, himageNames⟩, ⟨hroots, hsegments⟩⟩
  · rintro ⟨hthere, hlegible⟩
    obtain ⟨logical, hlogical⟩ :=
      logicalSources_ok_iff.2 ⟨hthere.files, hthere.objects, hthere.sourceInfo, hlegible.files⟩
    obtain ⟨images, himages⟩ :=
      imageSources_ok_iff.2 ⟨hthere.imageNames, hthere.objects, hthere.sourceInfo, hlegible.segments⟩
    exact ⟨_, names_eq_ok_iff.2 ⟨logical, images, hlogical, himages, rfl⟩⟩

/-- **A file without a name that can be read is the failure**, if it is shown. -/
theorem names_of_illegible_file (naming : Naming) {f : FileRow} (hf : t.SelectsFile f)
    (hnot : ¬ f.name.Legible) : ∃ text, t.names naming = .error (.malformedRow text) := by
  have hfails : ∃ text, t.logicalSources = .error (.malformedRow text) := by
    rw [logicalSources_eq_listing]
    exact listing_of_illegible (isSome_of_mem hf.1) hf.2 (mem_rootNames.2 ⟨f, hf, rfl⟩) hnot
  obtain ⟨text, htext⟩ := hfails
  exact ⟨text, by simp [names, htext]⟩

/-- **So is a segment**, unless there is no table of files, which would be reported first. -/
theorem names_of_illegible_segment (naming : Naming) {s : ImageNameRow} (hs : t.SelectsSegment id s)
    (hnot : ¬ s.name.Legible) (hfiles : t.files.isSome = true) :
    ∃ text, t.names naming = .error (.malformedRow text) := by
  have hfails : ∃ text, t.imageSources = .error (.malformedRow text) := by
    rw [imageSources_eq_listing]
    exact listing_of_illegible (isSome_of_mem hs.1) hs.2.2
      (List.mem_map_of_mem (mem_sortedSegments.2 hs)) hnot
  obtain ⟨text, htext⟩ := hfails
  unfold names
  rw [logicalSources_eq_listing, listing_of_there hfiles hs.2.2.isSome_objects hs.2.2.isSome_sourceInfo]
  rcases readNames_cases t.rows.rootNames with ⟨logical, hlogical⟩ | ⟨text', hlogical⟩
  · exact ⟨text, by simp [hlogical, htext]⟩
  · exact ⟨text', by simp [hlogical]⟩

/-- **Rows that are not shown do not matter.** -/
theorem names_congr (h : t.SelectsAlike t') : t.names naming = t'.names naming := by
  have hroots : t.rows.rootNames = t'.rows.rootNames := by
    simp only [Rows.rootNames, has_eq, h.selectedFiles]
  have hsegments : t.rows.sortedSegments = t'.rows.sortedSegments := by
    rw [Rows.sortedSegments, h.selectedSegments, Rows.sortedSegments]
  have hlogical : t.logicalSources = t'.logicalSources := by
    rw [logicalSources_eq_listing, logicalSources_eq_listing, hroots, h.files,
      listing_congr h.objects h.sourceInfo]
  have himages : t.imageSources = t'.imageSources := by
    rw [imageSources_eq_listing, imageSources_eq_listing, hsegments, h.imageNames,
      listing_congr h.objects h.sourceInfo]
  rw [names, hlogical, himages, names]

/-- No file gives a name to an id if none with the id is shown. -/
theorem lastName?_of_unselected {logical : List SourceRow} (h : t.logicalSources = .ok logical)
    (hnone : ∀ f, t.SelectsFile f → f.id ≠ id) : NameMap.lastName? logical id = none := by
  rw [logicalSources_eq_listing, listing_eq_ok_iff] at h
  apply NameMap.lastName?_eq_none
  intro r hr
  obtain ⟨c, hc, hid⟩ := mem_of_readNames h.2.2.2 hr
  obtain ⟨f, hf, rfl⟩ := mem_rootNames.1 hc
  exact hid ▸ hnone f hf

/-- **An image goes by a segment of its that no other comes before**, if no file has its id. -/
theorem names_least (hm : t.names naming = .ok m) (hnone : ∀ f, t.SelectsFile f → f.id ≠ id)
    {s : ImageNameRow} (hs : t.SelectsSegment id s) :
    ∃ first path, t.SelectsSegment id first ∧ first.name.Spells path ∧
      m.find? id = some (naming.image path) ∧
      ∀ s, t.SelectsSegment id s → first.sequence.le s.sequence = true := by
  obtain ⟨logical, images, hlogical, himages, rfl⟩ := names_eq_ok_iff.1 hm
  rw [imageSources_eq_listing, listing_eq_ok_iff] at himages
  obtain ⟨e, hfind⟩ : ∃ e, t.rows.sortedSegments.find? (·.1 = id) = some e := by
    apply Option.isSome_iff_exists.1
    exact List.find?_isSome.2 ⟨_, mem_sortedSegments.2 hs, by simp⟩
  obtain ⟨id', first⟩ := e
  have hid : id' = id := by simpa using List.find?_some hfind
  subst hid
  have hcell : (t.rows.sortedSegments.map fun s => (s.1, s.2.name)).find? (·.1 = id') =
      some (id', first.name) := by
    rw [List.find?_map]
    exact congrArg (Option.map _) hfind
  obtain ⟨path, hpath, hfirst⟩ := firstName?_of_readNames himages.2.2.2 hcell
  refine ⟨first, path, mem_sortedSegments.1 (List.mem_of_find?_eq_some hfind), hpath, ?_, ?_⟩
  · rw [NameMap.find?_merge, lastName?_of_unselected hlogical hnone, hfirst]
    rfl
  · intro s hs
    exact Rows.sequence_le_of_find? hfind (mem_listedSegments.2 hs)

end Tables

/-! ## The database -/

/-- The database with other tables. -/
def Db.withTables (db : Db) (t : Tables) : Db :=
  { db with committed := t }

/-- The database reads the names off its tables, and stays as it is. -/
theorem load_eq_names (db : Db) (hopen : db.closed = false) (naming : Naming) :
    NameMap.load naming Relational.store db = (.ofExcept (db.committed.names naming), db) := by
  have hlogical := Relational.logicalSources_eq hopen
  have himages := Relational.imageSources_eq hopen
  unfold Tables.names
  cases hl : db.committed.logicalSources with
  | error e =>
    rw [hl] at hlogical
    exact NameMap.load_of_logical_failed hlogical
  | ok logical =>
    rw [hl] at hlogical
    cases hi : db.committed.imageSources with
    | error e =>
      rw [hi] at himages
      exact NameMap.load_of_image_failed hlogical himages
    | ok images =>
      rw [hi] at himages
      exact NameMap.load_of_listed hlogical himages

/-- A source that has two segments as well, one of them with a name that is no text. -/
def shadowedSegments : Tables where
  objects := some [⟨1, .null, .int 0⟩]
  sourceInfo := some [⟨1, .text "dev", .text "", .int 0⟩]
  files := some [⟨1, .int 1, .int 6, .text "Case 1", .int 11, .int 11, .int 0, .null, .text "/"⟩]
  filePaths := some []
  imageNames := some [⟨.int 1, .int 0, .text "/img/d.001"⟩, ⟨.int 1, .int 1, .blob [0xFF, 0x00]⟩]
  versions := some []

/-- The same source without that segment. -/
def repairedSegments : Tables :=
  { shadowedSegments with imageNames := some [⟨.int 1, .int 0, .text "/img/d.001"⟩] }

/-- An image with a name that is no text, in a case without a table of files. -/
def imageWithoutFiles : Tables where
  objects := some [⟨1, .null, .int 0⟩]
  sourceInfo := some [⟨1, .text "dev", .text "", .int 0⟩]
  files := none
  filePaths := some []
  imageNames := some [⟨.int 1, .int 0, .blob [0xFF, 0x00]⟩]
  versions := some []

end Casefile
