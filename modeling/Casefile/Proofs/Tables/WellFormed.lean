import Casefile.Proofs.Tables.Rows

/-!
# Well-formed tables

* `Rows.filesOf`, `infoOf`, `pathsOf`, `segmentsOf` — what the tables hold about one object.
* `Rows.IsRoot`, `IsBelow`, `IsImage` — an object that is the root of a logical source, a file or
  directory, or an image, by the rows about it.
* `Rows.WellFormed` — the ids are 1 to n, every object is one of these, and every row is about an
  object.
* `Rows.PathBelow` — the path under which the objects below a root or directory are shown.

Principal results: `WellFormed.source`, `WellFormed.file`, `WellFormed.image` — the rows of a new object
keep the tables well-formed.  A file needs a root or directory to go below, and the path that belongs
to it; an image needs a segment.
-/

set_option autoImplicit false

namespace Casefile

/-- The codes of a row of `tsk_files`. -/
def FileRow.HasCodes (f : FileRow) (c : FileCodes) : Prop :=
  f.type = .int c.type ∧ f.metaType = .int c.metaType ∧ f.dirType = .int c.dirType

namespace Rows

def filesOf (r : Rows) (id : ObjectId) : List FileRow :=
  r.files.filter (·.id = id)

def infoOf (r : Rows) (id : ObjectId) : List SourceInfoRow :=
  r.sourceInfo.filter (·.id = id)

def pathsOf (r : Rows) (id : ObjectId) : List FilePathRow :=
  r.filePaths.filter (·.id = id)

def segmentsOf (r : Rows) (id : ObjectId) : List ImageNameRow :=
  r.imageNames.filter (·.image = .int id)

/-- The root of a logical source: a file at the top, with information about the source. -/
structure IsRoot (r : Rows) (id : ObjectId) : Prop where
  file : ∃ f, r.filesOf id = [f] ∧ f.HasCodes .sourceRoot ∧ f.parentPath = .text "/"
  info : ∃ i, r.infoOf id = [i]
  path : r.pathsOf id = []
  segments : r.segmentsOf id = []

/-- A file or directory below `parent`: it is shown under the path of its parent followed by the
parent's name, and is no source. -/
structure IsBelow (r : Rows) (parent id : ObjectId) : Prop where
  file : ∃ f g path name, r.filesOf id = [f] ∧ r.filesOf parent = [g] ∧ g.parentPath = .text path ∧
    g.name = .text name ∧ f.parentPath = .text (path ++ name ++ "/")
  path : ∃ p, r.pathsOf id = [p]
  info : r.infoOf id = []
  segments : r.segmentsOf id = []

/-- An image: its segments are numbered from 0 on, and it is no file. -/
structure IsImage (r : Rows) (id : ObjectId) : Prop where
  info : ∃ i, r.infoOf id = [i]
  segments : ∃ names, names ≠ [] ∧ r.segmentsOf id = Rows.segments id 0 names
  file : r.filesOf id = []
  path : r.pathsOf id = []

/-- What files and directories can be put below: the root of a logical source, or a directory. -/
def IsFolder (r : Rows) (o : ObjectRow) : Prop :=
  o.type = .int ObjectRow.fileType ∧
    (o.parent = .null ∨ ∃ f, r.filesOf o.id = [f] ∧ f.HasCodes (.ofKind .directory))

/-- An object and the rows about it fit together. -/
structure Sound (r : Rows) (o : ObjectRow) : Prop where
  typed : o.type = .int ObjectRow.fileType ∨ o.type = .int ObjectRow.imageType
  parent : o.parent = .null ∨
    ∃ p ∈ r.objects, o.parent = .int p.id ∧ p.id < o.id ∧ r.IsFolder p
  root : o.type = .int ObjectRow.fileType → o.parent = .null → r.IsRoot o.id
  below : ∀ p, o.type = .int ObjectRow.fileType → o.parent = .int p → r.IsBelow p o.id
  image : o.type = .int ObjectRow.imageType → o.parent = .null ∧ r.IsImage o.id

/-- Whether there is an object of an id. -/
def Has (r : Rows) (id : ObjectId) : Prop :=
  ∃ o ∈ r.objects, o.id = id

/-- The ids of the objects are 1 to n, every object fits the rows about it, and every row is about
an object. -/
structure WellFormed (r : Rows) : Prop where
  ids : r.objects.map (·.id) = (List.range r.objects.length).map fun k : Nat => (k : Int) + 1
  sound : ∀ o ∈ r.objects, r.Sound o
  sourceInfo : ∀ x ∈ r.sourceInfo, r.Has x.id
  files : ∀ x ∈ r.files, r.Has x.id
  filePaths : ∀ x ∈ r.filePaths, r.Has x.id
  imageNames : ∀ x ∈ r.imageNames, ∃ id, x.image = .int id ∧ r.Has id

/-- The path under which what is directly below an object is shown. -/
def PathBelow (r : Rows) (id : ObjectId) (path : String) : Prop :=
  ∃ o ∈ r.objects, o.id = id ∧ r.IsFolder o ∧ ∃ f parentPath name, r.filesOf id = [f] ∧
    f.parentPath = .text parentPath ∧ f.name = .text name ∧ path = parentPath ++ name ++ "/"

/-! ## Rows about one object -/

/-- Rows that are all about one object. -/
structure About (a : Rows) (id : ObjectId) : Prop where
  objects : ∀ x ∈ a.objects, x.id = id
  sourceInfo : ∀ x ∈ a.sourceInfo, x.id = id
  files : ∀ x ∈ a.files, x.id = id
  filePaths : ∀ x ∈ a.filePaths, x.id = id
  imageNames : ∀ x ∈ a.imageNames, x.image = .int id

theorem segments_image (id : ObjectId) :
    ∀ (paths : List String) (first : Nat), ∀ x ∈ segments id first paths, x.image = .int id
  | [], _, x, hx => by cases hx
  | path :: paths, first, x, hx => by
    rcases List.mem_cons.1 hx with rfl | hx
    · rfl
    · exact segments_image id paths (first + 1) x hx

theorem source_about (id : ObjectId) (request : SourceRequest) (name : String) :
    (source id request name).About id := by
  constructor <;> simp [source]

theorem file_about (id : ObjectId) (request : FileRequest) (parentPath : String) :
    (file id request parentPath).About id := by
  constructor <;> simp [file]

theorem image_about (id : ObjectId) (request : ImageRequest) : (image id request).About id := by
  constructor
  · simp [image]
  · simp [image]
  · simp [image]
  · simp [image]
  · exact segments_image id request.paths 0

/-- Rows of which none is asked for change nothing. -/
theorem filter_append_left {α : Type} {p : α → Bool} {xs ys : List α} (h : ∀ y ∈ ys, ¬ p y = true) :
    (xs ++ ys).filter p = xs.filter p := by
  rw [List.filter_append, List.filter_eq_nil_iff.2 h, List.append_nil]

variable {r a : Rows} {id : ObjectId}

@[simp] theorem filesOf_append (r a : Rows) (id : ObjectId) :
    (r ++ a).filesOf id = r.filesOf id ++ a.filesOf id :=
  List.filter_append ..

@[simp] theorem infoOf_append (r a : Rows) (id : ObjectId) :
    (r ++ a).infoOf id = r.infoOf id ++ a.infoOf id :=
  List.filter_append ..

@[simp] theorem pathsOf_append (r a : Rows) (id : ObjectId) :
    (r ++ a).pathsOf id = r.pathsOf id ++ a.pathsOf id :=
  List.filter_append ..

@[simp] theorem segmentsOf_append (r a : Rows) (id : ObjectId) :
    (r ++ a).segmentsOf id = r.segmentsOf id ++ a.segmentsOf id :=
  List.filter_append ..

namespace About

theorem filesOf_self (h : a.About id) : a.filesOf id = a.files :=
  List.filter_eq_self.2 fun x hx => decide_eq_true (h.files x hx)

theorem infoOf_self (h : a.About id) : a.infoOf id = a.sourceInfo :=
  List.filter_eq_self.2 fun x hx => decide_eq_true (h.sourceInfo x hx)

theorem pathsOf_self (h : a.About id) : a.pathsOf id = a.filePaths :=
  List.filter_eq_self.2 fun x hx => decide_eq_true (h.filePaths x hx)

theorem segmentsOf_self (h : a.About id) : a.segmentsOf id = a.imageNames :=
  List.filter_eq_self.2 fun x hx => decide_eq_true (h.imageNames x hx)

variable {other : ObjectId}

theorem filesOf_other (h : a.About id) (hne : other ≠ id) : (r ++ a).filesOf other = r.filesOf other :=
  filter_append_left fun x hx => by simp [h.files x hx, Ne.symm hne]

theorem infoOf_other (h : a.About id) (hne : other ≠ id) : (r ++ a).infoOf other = r.infoOf other :=
  filter_append_left fun x hx => by simp [h.sourceInfo x hx, Ne.symm hne]

theorem pathsOf_other (h : a.About id) (hne : other ≠ id) : (r ++ a).pathsOf other = r.pathsOf other :=
  filter_append_left fun x hx => by simp [h.filePaths x hx, Ne.symm hne]

theorem segmentsOf_other (h : a.About id) (hne : other ≠ id) :
    (r ++ a).segmentsOf other = r.segmentsOf other :=
  filter_append_left fun x hx => by simp [h.imageNames x hx, Ne.symm hne]

end About

/-! ## What further rows leave as it is -/

theorem IsRoot.append {x : ObjectId} (h : r.IsRoot x) (ha : a.About id) (hne : x ≠ id) :
    (r ++ a).IsRoot x := by
  constructor
  · rw [ha.filesOf_other hne]; exact h.file
  · rw [ha.infoOf_other hne]; exact h.info
  · rw [ha.pathsOf_other hne]; exact h.path
  · rw [ha.segmentsOf_other hne]; exact h.segments

theorem IsBelow.append {p x : ObjectId} (h : r.IsBelow p x) (ha : a.About id) (hne : x ≠ id)
    (hp : p ≠ id) : (r ++ a).IsBelow p x := by
  constructor
  · rw [ha.filesOf_other hne, ha.filesOf_other hp]; exact h.file
  · rw [ha.pathsOf_other hne]; exact h.path
  · rw [ha.infoOf_other hne]; exact h.info
  · rw [ha.segmentsOf_other hne]; exact h.segments

theorem IsImage.append {x : ObjectId} (h : r.IsImage x) (ha : a.About id) (hne : x ≠ id) :
    (r ++ a).IsImage x := by
  constructor
  · rw [ha.infoOf_other hne]; exact h.info
  · rw [ha.segmentsOf_other hne]; exact h.segments
  · rw [ha.filesOf_other hne]; exact h.file
  · rw [ha.pathsOf_other hne]; exact h.path

theorem IsFolder.append {o : ObjectRow} (h : r.IsFolder o) (ha : a.About id) (hne : o.id ≠ id) :
    (r ++ a).IsFolder o := by
  refine ⟨h.1, ?_⟩
  rw [ha.filesOf_other hne]
  exact h.2

/-- New rows about an object with a later id do not change what holds of an earlier one. -/
theorem Sound.append {o : ObjectRow} (h : r.Sound o) (ha : a.About id) (hlt : o.id < id) :
    (r ++ a).Sound o := by
  have hne : o.id ≠ id := by lia
  refine ⟨h.typed, ?_, fun ht hp => (h.root ht hp).append ha hne, ?_,
    fun ht => ⟨(h.image ht).1, (h.image ht).2.append ha hne⟩⟩
  · rcases h.parent with hnull | ⟨p, hp, hpar, hpo, hfolder⟩
    · exact Or.inl hnull
    · exact Or.inr ⟨p, List.mem_append_left _ hp, hpar, hpo, hfolder.append ha (by lia)⟩
  · intro p ht hp
    rcases h.parent with hnull | ⟨q, _, hpar, hqo, _⟩
    · rw [hnull] at hp; cases hp
    · rw [hpar] at hp
      cases hp
      exact (h.below q.id ht hpar).append ha hne (by lia)

theorem Has.append {x : ObjectId} (h : r.Has x) (a : Rows) : (r ++ a).Has x := by
  obtain ⟨o, ho, hid⟩ := h
  exact ⟨o, List.mem_append_left _ ho, hid⟩

theorem PathBelow.has {x : ObjectId} {path : String} (h : r.PathBelow x path) : r.Has x := by
  obtain ⟨o, ho, hid, _⟩ := h
  exact ⟨o, ho, hid⟩

theorem PathBelow.append {x : ObjectId} {path : String} (h : r.PathBelow x path) (ha : a.About id)
    (hlt : x < id) : (r ++ a).PathBelow x path := by
  obtain ⟨o, ho, hid, hfolder, f, pp, name, hf, hrest⟩ := h
  have hne : x ≠ id := by lia
  refine ⟨o, List.mem_append_left _ ho, hid, hfolder.append ha (hid ▸ hne), f, pp, name, ?_, hrest⟩
  rw [ha.filesOf_other hne]
  exact hf

/-! ## A new object -/

namespace WellFormed

theorem lt_nextId (h : r.WellFormed) {x : ObjectId} (hx : r.Has x) : x < r.nextId := by
  obtain ⟨o, ho, rfl⟩ := hx
  have hm : o.id ∈ r.objects.map (·.id) := List.mem_map_of_mem ho
  rw [h.ids] at hm
  obtain ⟨k, hk, he⟩ := List.mem_map.1 hm
  have hlt : k < r.objects.length := List.mem_range.1 hk
  have hid : (k : Int) + 1 = o.id := he
  unfold nextId
  lia

theorem numbered (h : r.WellFormed) : r.Numbered :=
  ⟨h.ids, fun x hx => h.lt_nextId (h.sourceInfo x hx), fun x hx => h.lt_nextId (h.files x hx),
    fun x hx => h.lt_nextId (h.filePaths x hx)⟩

/-- No row is about the object to come. -/
theorem filesOf_nextId (h : r.WellFormed) : r.filesOf r.nextId = [] :=
  List.filter_eq_nil_iff.2 fun x hx => by
    have := h.lt_nextId (h.files x hx)
    simp only [decide_eq_true_eq]
    lia

theorem infoOf_nextId (h : r.WellFormed) : r.infoOf r.nextId = [] :=
  List.filter_eq_nil_iff.2 fun x hx => by
    have := h.lt_nextId (h.sourceInfo x hx)
    simp only [decide_eq_true_eq]
    lia

theorem pathsOf_nextId (h : r.WellFormed) : r.pathsOf r.nextId = [] :=
  List.filter_eq_nil_iff.2 fun x hx => by
    have := h.lt_nextId (h.filePaths x hx)
    simp only [decide_eq_true_eq]
    lia

theorem segmentsOf_nextId (h : r.WellFormed) : r.segmentsOf r.nextId = [] :=
  List.filter_eq_nil_iff.2 fun x hx => by
    obtain ⟨id, himg, hid⟩ := h.imageNames x hx
    have := h.lt_nextId hid
    simp only [himg, decide_eq_true_eq, Cell.int.injEq]
    lia

/-- **A new object keeps the tables well-formed** if it fits the rows that come with it. -/
theorem append (h : r.WellFormed) {o : ObjectRow} (ha : a.About r.nextId) (hone : a.objects = [o])
    (ho : (r ++ a).Sound o) : (r ++ a).WellFormed := by
  have hid : o.id = r.nextId := ha.objects o (by simp [hone])
  have hnew : (r ++ a).Has r.nextId := ⟨o, by simp [hone], hid⟩
  constructor
  · rw [append_objects, hone, List.map_append, List.length_append, h.ids]
    simp only [List.map_cons, List.map_nil, List.length_cons, List.length_nil, hid, nextId]
    rw [List.range_succ, List.map_append]
    rfl
  · intro x hx
    rw [append_objects, hone] at hx
    rcases List.mem_append.1 hx with hx | hx
    · exact (h.sound x hx).append ha (h.lt_nextId ⟨x, hx, rfl⟩)
    · rw [List.mem_singleton.1 hx]
      exact ho
  · intro x hx
    rcases List.mem_append.1 hx with hx | hx
    · exact (h.sourceInfo x hx).append a
    · rw [ha.sourceInfo x hx]
      exact hnew
  · intro x hx
    rcases List.mem_append.1 hx with hx | hx
    · exact (h.files x hx).append a
    · rw [ha.files x hx]
      exact hnew
  · intro x hx
    rcases List.mem_append.1 hx with hx | hx
    · exact (h.filePaths x hx).append a
    · rw [ha.filePaths x hx]
      exact hnew
  · intro x hx
    rcases List.mem_append.1 hx with hx | hx
    · obtain ⟨i, himg, hi⟩ := h.imageNames x hx
      exact ⟨i, himg, hi.append a⟩
    · exact ⟨r.nextId, ha.imageNames x hx, hnew⟩

/-! What the tables hold about the new object is what was recorded with it. -/

theorem filesOf_new (h : r.WellFormed) (ha : a.About r.nextId) :
    (r ++ a).filesOf r.nextId = a.files := by
  rw [filesOf_append, h.filesOf_nextId, ha.filesOf_self, List.nil_append]

theorem infoOf_new (h : r.WellFormed) (ha : a.About r.nextId) :
    (r ++ a).infoOf r.nextId = a.sourceInfo := by
  rw [infoOf_append, h.infoOf_nextId, ha.infoOf_self, List.nil_append]

theorem pathsOf_new (h : r.WellFormed) (ha : a.About r.nextId) :
    (r ++ a).pathsOf r.nextId = a.filePaths := by
  rw [pathsOf_append, h.pathsOf_nextId, ha.pathsOf_self, List.nil_append]

theorem segmentsOf_new (h : r.WellFormed) (ha : a.About r.nextId) :
    (r ++ a).segmentsOf r.nextId = a.imageNames := by
  rw [segmentsOf_append, h.segmentsOf_nextId, ha.segmentsOf_self, List.nil_append]

/-- **The root of a new source keeps the tables well-formed.** -/
theorem source (h : r.WellFormed) (request : SourceRequest) (name : String) :
    (r ++ Rows.source r.nextId request name).WellFormed := by
  have ha := source_about r.nextId request name
  refine h.append ha rfl ⟨Or.inl rfl, Or.inl rfl, fun _ _ => ⟨⟨_, h.filesOf_new ha, ?_, rfl⟩,
    ⟨_, h.infoOf_new ha⟩, h.pathsOf_new ha, h.segmentsOf_new ha⟩, ?_, ?_⟩
  · exact ⟨rfl, rfl, rfl⟩
  · intro p _ hp
    cases hp
  · intro ht
    cases ht

/-- **A new file or directory keeps the tables well-formed** if its parent is a root or a directory,
and it is shown under the path that belongs to it. -/
theorem file (h : r.WellFormed) (request : FileRequest) {path : String}
    (hp : r.PathBelow request.parent path) :
    (r ++ Rows.file r.nextId request path).WellFormed := by
  have ha := file_about r.nextId request path
  obtain ⟨o, ho, hid, hfolder, g, pp, name, hg, hpp, hname, rfl⟩ := hp
  have hlt : o.id < r.nextId := h.lt_nextId ⟨o, ho, rfl⟩
  have hne : request.parent ≠ r.nextId := by lia
  refine h.append ha rfl ⟨Or.inl rfl, ?_, ?_, ?_, ?_⟩
  · exact Or.inr ⟨o, List.mem_append_left _ ho, by rw [hid], hlt, hfolder.append ha (by lia)⟩
  · intro _ hnull
    cases hnull
  · intro p _ hpar
    cases hpar
    refine ⟨⟨_, g, pp, name, h.filesOf_new ha, ?_, hpp, hname, rfl⟩, ⟨_, h.pathsOf_new ha⟩,
      h.infoOf_new ha, h.segmentsOf_new ha⟩
    rw [ha.filesOf_other hne]
    exact hg
  · intro ht
    cases ht

/-- **A new image keeps the tables well-formed** if it has a segment. -/
theorem image (h : r.WellFormed) (request : ImageRequest) (hne : request.paths ≠ []) :
    (r ++ Rows.image r.nextId request).WellFormed := by
  have ha := image_about r.nextId request
  refine h.append ha rfl ⟨Or.inr rfl, Or.inl rfl, ?_, ?_, fun _ => ⟨rfl, ⟨⟨_, h.infoOf_new ha⟩,
    ⟨request.paths, hne, h.segmentsOf_new ha⟩, h.filesOf_new ha, h.pathsOf_new ha⟩⟩⟩
  · intro ht
    cases ht
  · intro p ht
    cases ht

/-! ## Paths below a new object -/

theorem pathBelow_source (h : r.WellFormed) (request : SourceRequest) (name : String) :
    (r ++ Rows.source r.nextId request name).PathBelow r.nextId (Tables.rootPath name) := by
  have ha := source_about r.nextId request name
  refine ⟨_, List.mem_append_right _ (List.mem_singleton.2 rfl), rfl, ⟨rfl, Or.inl rfl⟩, _, "/", name,
    h.filesOf_new ha, rfl, rfl, ?_⟩
  rfl

theorem pathBelow_directory (h : r.WellFormed) (request : FileRequest) (path : String)
    (hk : request.entry.kind = .directory) :
    (r ++ Rows.file r.nextId request path).PathBelow r.nextId (path ++ request.entry.name ++ "/") := by
  have ha := file_about r.nextId request path
  refine ⟨_, List.mem_append_right _ (List.mem_singleton.2 rfl), rfl, ⟨rfl, Or.inr ⟨_, h.filesOf_new ha,
    ?_⟩⟩, _, path, request.entry.name, h.filesOf_new ha, rfl, rfl, rfl⟩
  rw [hk]
  exact ⟨rfl, rfl, rfl⟩

end WellFormed

end Rows

/-! ## Well-formed case databases -/

/-- No table is missing, the schema is up to date, and the rows are well-formed. -/
structure Tables.WellFormed (t : Tables) : Prop where
  complete : t.Complete
  rows : t.rows.WellFormed
  version : t.version = latestVersion

theorem Tables.fresh_wellFormed (now : Int) : (fresh now).WellFormed := by
  refine ⟨⟨rfl, rfl, rfl, rfl, rfl⟩, ⟨rfl, ?_, ?_, ?_, ?_, ?_⟩, rfl⟩ <;> intro x hx <;> cases hx

/-- Tables with rows added are well-formed if the rows are. -/
theorem Tables.WellFormed.plus {t : Tables} (h : t.WellFormed) {a : Rows}
    (ha : (t.rows ++ a).WellFormed) : (t.plus a).WellFormed := by
  refine ⟨h.complete.plus a, ?_, h.version⟩
  rw [rows_plus h.complete]
  exact ha

end Casefile
