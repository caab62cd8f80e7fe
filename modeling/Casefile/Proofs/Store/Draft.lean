import Casefile.Proofs.Tables.WellFormed
import Casefile.Store.Relational
import Casefile.Store.Session

/-!
# What a transaction does to its tables

* `Request` — what a transaction can be asked to record; `Deed` — what it has recorded, with the answer
  it gave.
* `Draft` — the tables as a transaction sees them, and the paths of what is below its folders.
* `Draft.perform` — the effect of a request on a draft: the rows of one object are added, or
  nothing is.
* `Tx.perform` — a request to an open transaction; `Tx.MayWrite` — it has the write permit or can get it.

Principal results: `Draft.WellFormed.perform` — requests keep drafts well-formed.  `Tx.perform_cases` — a
request to a transaction with a well-formed draft either does what `Draft.perform` says and takes
the write permit, or is refused and leaves the draft and the database as they were; it is
refused exactly if the draft refuses it or the transaction may not write.
`Relational.addSource_cases` and `Relational.addFile_cases` — the same of the calls of the store.
-/

set_option autoImplicit false

namespace Casefile

/-- What a transaction can be asked to record. -/
inductive Request where
  | source (request : SourceRequest)
  | file (request : FileRequest)
  | image (request : ImageRequest)
  deriving DecidableEq, Repr

/-- What a transaction has recorded, with the answer it gave. -/
inductive Deed where
  | source (request : SourceRequest) (content : Content)
  | file (request : FileRequest) (id : ObjectId)
  | image (request : ImageRequest) (content : Content)
  deriving DecidableEq, Repr

/-- What was asked for. -/
def Deed.request : Deed → Request
  | .source request _ => .source request
  | .file request _ => .file request
  | .image request _ => .image request

/-- The number of logical sources. -/
def Rows.sourceCount (r : Rows) : Nat :=
  r.files.countP fun f => r.sourceInfo.any (·.id = f.id)

/-- The name of the next source: the one that is asked for, or a default one. -/
def Rows.nameFor (r : Rows) (name? : Option String) : String :=
  name?.getD (Tables.defaultSourceName (r.sourceCount + 1))

/-- The tables as a transaction sees them, and the path of what is below each of its folders. -/
structure Draft where
  tables : Tables
  childPaths : List (ObjectId × String)
  deriving DecidableEq, Repr

namespace Draft

/-- The id of the next object. -/
def nextId (d : Draft) : ObjectId :=
  d.tables.rows.nextId

/-- The draft with a source of a given name. -/
def withSource (d : Draft) (request : SourceRequest) (name : String) : Draft :=
  ⟨d.tables.plus (Rows.source d.nextId request name), (d.nextId, Tables.rootPath name) :: d.childPaths⟩

/-- The draft with a file or directory that is shown under `path`. -/
def withFile (d : Draft) (request : FileRequest) (path : String) : Draft where
  tables := d.tables.plus (Rows.file d.nextId request path)
  childPaths :=
    match request.entry.kind with
    | .file => d.childPaths
    | .directory => (d.nextId, path ++ request.entry.name ++ "/") :: d.childPaths

/-- The draft with an image. -/
def withImage (d : Draft) (request : ImageRequest) : Draft :=
  ⟨d.tables.plus (Rows.image d.nextId request), d.childPaths⟩

/-- The effect of a request. -/
def perform (d : Draft) : Request → Except Failure (Deed × Draft)
  | .source request =>
    let name := d.tables.rows.nameFor request.name?
    .ok (.source request ⟨d.nextId, name, request.device⟩, d.withSource request name)
  | .file request =>
    match d.childPaths.lookup request.parent with
    | none => .error (Tx.unknownParent request.parent)
    | some path =>
      if Tx.maxSize < request.entry.size then .error (Tx.tooLarge request.entry.path)
      else .ok (.file request d.nextId, d.withFile request path)
  | .image request =>
    match request.paths with
    | [] => .error Tx.noSegments
    | first :: _ => .ok (.image request ⟨d.nextId, first, request.device⟩, d.withImage request)

theorem perform_file_eq {d : Draft} {request : FileRequest} {path : String}
    (hpath : d.childPaths.lookup request.parent = some path)
    (hsize : ¬ Tx.maxSize < request.entry.size) :
    d.perform (.file request) = .ok (.file request d.nextId, d.withFile request path) := by
  simp only [perform, hpath, if_neg hsize]

theorem perform_image_eq {d : Draft} {request : ImageRequest} {first : String} {rest : List String}
    (hpaths : request.paths = first :: rest) :
    d.perform (.image request) =
      .ok (.image request ⟨d.nextId, first, request.device⟩, d.withImage request) := by
  simp only [perform, hpaths]

/-- The tables are well-formed, and each path belongs to a root or directory. -/
structure WellFormed (d : Draft) : Prop where
  tables : d.tables.WellFormed
  childPaths : ∀ id path, d.childPaths.lookup id = some path → d.tables.rows.PathBelow id path

/-- What was done is what was asked for. -/
theorem perform_request {d d' : Draft} {q : Request} {deed : Deed}
    (h : d.perform q = .ok (deed, d')) : deed.request = q := by
  unfold perform at h
  split at h
  · cases h; rfl
  · split at h
    · cases h
    · split at h
      · cases h
      · cases h; rfl
  · split at h
    · cases h
    · cases h; rfl

/-- The paths of earlier folders stay right when rows about a new object are added. -/
theorem WellFormed.childPaths_plus {d : Draft} (h : d.WellFormed) {a : Rows}
    (ha : a.About d.tables.rows.nextId) :
    ∀ id path, d.childPaths.lookup id = some path → (d.tables.plus a).rows.PathBelow id path := by
  intro id path hl
  have hp := h.childPaths id path hl
  rw [Tables.rows_plus h.tables.complete]
  exact hp.append ha (h.tables.rows.lt_nextId hp.has)

/-- A path that comes with a new folder beside those of the earlier ones. -/
theorem lookup_cons_cases {id new : ObjectId} {path newPath : String}
    {paths : List (ObjectId × String)} (h : List.lookup id ((new, newPath) :: paths) = some path) :
    (id = new ∧ path = newPath) ∨ paths.lookup id = some path := by
  rw [List.lookup_cons] at h
  split at h
  · rename_i heq
    cases h
    exact Or.inl ⟨by simpa using heq, rfl⟩
  · exact Or.inr h

theorem WellFormed.withSource {d : Draft} (h : d.WellFormed) (request : SourceRequest) (name : String) :
    (d.withSource request name).WellFormed := by
  refine ⟨h.tables.plus (h.tables.rows.source request name), fun id path hl => ?_⟩
  show (d.tables.plus _).rows.PathBelow id path
  rcases lookup_cons_cases hl with ⟨rfl, rfl⟩ | hl
  · rw [Tables.rows_plus h.tables.complete]
    exact h.tables.rows.pathBelow_source request name
  · exact h.childPaths_plus (Rows.source_about _ request name) id path hl

theorem WellFormed.withFile {d : Draft} (h : d.WellFormed) {request : FileRequest} {path : String}
    (hpath : d.childPaths.lookup request.parent = some path) : (d.withFile request path).WellFormed := by
  refine ⟨h.tables.plus (h.tables.rows.file request (h.childPaths _ _ hpath)), fun id p hl => ?_⟩
  show (d.tables.plus _).rows.PathBelow id p
  unfold Draft.withFile at hl
  cases hk : request.entry.kind with
  | file =>
    rw [hk] at hl
    exact h.childPaths_plus (Rows.file_about _ request path) id p hl
  | directory =>
    rw [hk] at hl
    rcases lookup_cons_cases hl with ⟨rfl, rfl⟩ | hl
    · rw [Tables.rows_plus h.tables.complete]
      exact h.tables.rows.pathBelow_directory request path hk
    · exact h.childPaths_plus (Rows.file_about _ request path) id p hl

theorem WellFormed.withImage {d : Draft} (h : d.WellFormed) {request : ImageRequest}
    (hne : request.paths ≠ []) : (d.withImage request).WellFormed :=
  ⟨h.tables.plus (h.tables.rows.image request hne), h.childPaths_plus (Rows.image_about _ request)⟩

/-- **Requests keep drafts well-formed**, whatever is asked for. -/
theorem WellFormed.perform {d d' : Draft} {q : Request} {deed : Deed} (h : d.WellFormed)
    (hp : d.perform q = .ok (deed, d')) : d'.WellFormed := by
  unfold Draft.perform at hp
  split at hp
  · cases hp
    exact h.withSource _ _
  · split at hp
    · cases hp
    · rename_i path hpath
      split at hp
      · cases hp
      · cases hp
        exact h.withFile hpath
  · split at hp
    · cases hp
    · rename_i hpaths
      cases hp
      exact h.withImage (by rw [hpaths]; exact List.cons_ne_nil _ _)

end Draft

/-! ## Requests to a transaction -/

namespace Tx

/-- The draft of a transaction. -/
def draft (tx : Tx) (db : Db) : Draft :=
  ⟨(tx.look db).tables, tx.childPaths⟩

/-- A request to a transaction. -/
def perform (tx : Tx) (db : Db) : Request → Except Failure Deed × Tx × Db
  | .source request =>
    let (answer, tx, db) := tx.addSource db request
    (answer.map (.source request), tx, db)
  | .file request =>
    let (answer, tx, db) := tx.addFile db request
    (answer.map (.file request), tx, db)
  | .image request =>
    let (answer, tx, db) := tx.addImage db request
    (answer.map (.image request), tx, db)

/-- The transaction has the write permit or can get it. -/
def MayWrite (tx : Tx) (db : Db) : Prop :=
  tx.wrote = true ∨ (db.writing = false ∧ (tx.look db).version = db.version)

/-- The transaction after it has written, with what it has made of its draft. -/
def became (tx : Tx) (db : Db) (d : Draft) : Tx :=
  ⟨some ⟨(tx.look db).version, d.tables⟩, true, d.childPaths⟩

variable {tx : Tx} {db : Db}

theorem startWriting_of_mayWrite (hw : tx.wrote = true → db.writing = true) (hm : tx.MayWrite db) :
    ∃ view?, tx.startWriting db = .ok (⟨view?, true, tx.childPaths⟩, { db with writing := true }) ∧
      view?.getD ⟨db.version, db.committed⟩ = tx.look db := by
  unfold startWriting
  cases hwrote : tx.wrote with
  | true =>
    have hdb : { db with writing := true } = db := by rw [← hw hwrote]
    refine ⟨tx.view?, ?_, rfl⟩
    rw [if_pos rfl, hdb, ← hwrote]
  | false =>
    obtain ⟨hfree, hver⟩ : db.writing = false ∧ (tx.look db).version = db.version := by
      rcases hm with h | h
      · rw [hwrote] at h; cases h
      · exact h
    refine ⟨some (tx.look db), ?_, rfl⟩
    rw [if_neg (by decide), hfree, if_neg (by decide), if_neg (by simpa using hver)]
    rfl

theorem startWriting_of_not_mayWrite (hm : ¬ tx.MayWrite db) : ∃ e, tx.startWriting db = .error e := by
  unfold startWriting
  have hwrote : ¬ tx.wrote = true := fun h => hm (Or.inl h)
  rw [if_neg hwrote]
  split
  · exact ⟨_, rfl⟩
  · rename_i hfree
    split
    · exact ⟨_, rfl⟩
    · rename_i hver
      exact absurd (Or.inr ⟨by simpa using hfree, by simpa using hver⟩) hm

/-- A write by a transaction that may write. -/
theorem write_of_mayWrite {α : Type} (hobj : (tx.look db).tables.objects ≠ none)
    (hw : tx.wrote = true → db.writing = true) (hm : tx.MayWrite db)
    (statements : Tables → Except Failure α × Tables) :
    tx.write db statements =
      ((statements (tx.look db).tables).1,
        tx.became db ⟨(statements (tx.look db).tables).2, tx.childPaths⟩,
        { db with writing := true }) := by
  obtain ⟨view?, hs, hv⟩ := startWriting_of_mayWrite hw hm
  unfold write
  rw [if_neg hobj, hs]
  simp only [look, hv]
  rfl

/-- A write by a transaction that may not. -/
theorem write_of_not_mayWrite {α : Type} (hm : ¬ tx.MayWrite db)
    (statements : Tables → Except Failure α × Tables) :
    ∃ e, tx.write db statements = (.error e, tx, db) := by
  unfold write
  split
  · exact ⟨_, rfl⟩
  · obtain ⟨e, he⟩ := startWriting_of_not_mayWrite hm
    rw [he]
    exact ⟨e, rfl⟩

/-- The transaction itself, or with its view fixed: a refused request may have read. -/
def Looked (tx : Tx) (db : Db) (tx' : Tx) : Prop :=
  tx' = tx ∨ tx' = tx.fixView db

theorem Looked.draft_eq {tx' : Tx} (h : tx.Looked db tx') : tx'.draft db = tx.draft db := by
  rcases h with rfl | rfl <;> rfl

theorem Looked.mayWrite_iff {tx' : Tx} (h : tx.Looked db tx') : tx'.MayWrite db ↔ tx.MayWrite db := by
  rcases h with rfl | rfl <;> rfl

theorem Looked.became_eq {tx' : Tx} (h : tx.Looked db tx') (d : Draft) :
    tx'.became db d = tx.became db d := by
  rcases h with rfl | rfl <;> rfl

theorem Looked.wrote_eq {tx' : Tx} (h : tx.Looked db tx') : tx'.wrote = tx.wrote := by
  rcases h with rfl | rfl <;> rfl

/-- On complete tables every source gets a name. -/
theorem sourceName_eq (hc : (tx.look db).tables.Complete) (name? : Option String) :
    ∃ tx', tx.sourceName db name? = (.ok ((tx.look db).tables.rows.nameFor name?), tx') ∧
      tx.Looked db tx' := by
  cases name? with
  | some name => exact ⟨tx, rfl, Or.inl rfl⟩
  | none =>
    refine ⟨tx.fixView db, ?_, Or.inr rfl⟩
    have hcount : (tx.look db).tables.sourceCount = .ok (tx.look db).tables.rows.sourceCount := by
      unfold Tables.sourceCount
      rw [hc.files, hc.sourceInfo]
      rfl
    simp only [sourceName, hcount]
    rfl

/-- How a request to a transaction ends: it is done the way the draft does it, which takes the write
permit, or refused, which leaves the draft and the database as they were. -/
inductive Performed (tx : Tx) (db : Db) (q : Request) : Except Failure Deed × Tx × Db → Prop where
  | done {deed : Deed} {d : Draft} (hd : (tx.draft db).perform q = .ok (deed, d))
      (hm : tx.MayWrite db) :
      Performed tx db q (.ok deed, tx.became db d, { db with writing := true })
  | refused {e : Failure} {tx' : Tx} (hl : tx.Looked db tx')
      (hno : ∀ deed d, (tx.draft db).perform q = .ok (deed, d) → ¬ tx.MayWrite db) :
      Performed tx db q (.error e, tx', db)

theorem perform_source (hd : (tx.draft db).WellFormed) (hw : tx.wrote = true → db.writing = true)
    (request : SourceRequest) :
    Performed tx db (.source request) (tx.perform db (.source request)) := by
  have hc : (tx.look db).tables.Complete := hd.tables.complete
  have hn : (tx.look db).tables.rows.Numbered := hd.tables.rows.numbered
  obtain ⟨tx', hname, hl⟩ := sourceName_eq hc request.name?
  have hlook : (tx'.look db).tables = (tx.look db).tables := congrArg Draft.tables hl.draft_eq
  have hpaths : tx'.childPaths = tx.childPaths := congrArg Draft.childPaths hl.draft_eq
  have hobj : (tx'.look db).tables.objects ≠ none := by rw [hlook, hc.objects]; exact Option.some_ne_none _
  simp only [perform, addSource, hname]
  by_cases hm : tx.MayWrite db
  · rw [write_of_mayWrite hobj (fun h => hw (hl.wrote_eq ▸ h)) (hl.mayWrite_iff.2 hm), hlook, hpaths,
      Tables.writeSource_eq hc hn, hl.became_eq]
    have hdone : (tx.draft db).perform (.source request) = .ok (_, _) := rfl
    exact .done hdone hm
  · obtain ⟨e, he⟩ := write_of_not_mayWrite (mt hl.mayWrite_iff.1 hm)
      (Tables.writeSource request ((tx.look db).tables.rows.nameFor request.name?))
    rw [he]
    exact .refused hl fun _ _ _ => hm

theorem perform_file (hd : (tx.draft db).WellFormed) (hw : tx.wrote = true → db.writing = true)
    (request : FileRequest) :
    Performed tx db (.file request) (tx.perform db (.file request)) := by
  have hc : (tx.look db).tables.Complete := hd.tables.complete
  have hn : (tx.look db).tables.rows.Numbered := hd.tables.rows.numbered
  have hobj : (tx.look db).tables.objects ≠ none := by rw [hc.objects]; exact Option.some_ne_none _
  simp only [perform, addFile, childPath?]
  cases hpath : tx.childPaths.lookup request.parent with
  | none =>
    refine .refused (Or.inl rfl) fun deed d hdone => ?_
    simp [Draft.perform, draft, hpath] at hdone
  | some path =>
    simp only
    split
    · rename_i hsize
      refine .refused (Or.inl rfl) fun deed d hdone => ?_
      simp [Draft.perform, draft, hpath, hsize] at hdone
    · rename_i hsize
      by_cases hm : tx.MayWrite db
      · have hdone := Draft.perform_file_eq (d := tx.draft db) hpath hsize
        rw [write_of_mayWrite hobj hw hm, Tables.writeFile_eq hc hn]
        unfold Draft.withFile at hdone
        cases hk : request.entry.kind with
        | file => rw [hk] at hdone; exact .done hdone hm
        | directory => rw [hk] at hdone; exact .done hdone hm
      · obtain ⟨e, he⟩ := write_of_not_mayWrite hm (Tables.writeFile request path)
        rw [he]
        exact .refused (Or.inl rfl) fun _ _ _ => hm

theorem perform_image (hd : (tx.draft db).WellFormed) (hw : tx.wrote = true → db.writing = true)
    (request : ImageRequest) :
    Performed tx db (.image request) (tx.perform db (.image request)) := by
  have hc : (tx.look db).tables.Complete := hd.tables.complete
  have hn : (tx.look db).tables.rows.Numbered := hd.tables.rows.numbered
  have hobj : (tx.look db).tables.objects ≠ none := by rw [hc.objects]; exact Option.some_ne_none _
  simp only [perform, addImage]
  cases hpaths : request.paths with
  | nil =>
    refine .refused (Or.inl rfl) fun deed d hdone => ?_
    simp [Draft.perform, hpaths] at hdone
  | cons first rest =>
    simp only
    by_cases hm : tx.MayWrite db
    · have hdone := Draft.perform_image_eq (d := tx.draft db) hpaths
      rw [write_of_mayWrite hobj hw hm, Tables.writeImage_eq hc hn]
      exact .done hdone hm
    · obtain ⟨e, he⟩ := write_of_not_mayWrite hm (Tables.writeImage request)
      rw [he]
      exact .refused (Or.inl rfl) fun _ _ _ => hm

/-- **A request to a transaction does what it does to the draft, or nothing.** -/
theorem perform_cases (hd : (tx.draft db).WellFormed) (hw : tx.wrote = true → db.writing = true)
    (q : Request) : Performed tx db q (tx.perform db q) := by
  cases q with
  | source request => exact perform_source hd hw request
  | file request => exact perform_file hd hw request
  | image request => exact perform_image hd hw request

end Tx

/-! ## The end of a transaction -/

theorem Db.release_of_wrote {db : Db} {tx : Tx} (hw : tx.wrote = true) :
    db.release tx = ⟨db.committed, db.version, false, db.closed⟩ := by
  unfold Db.release
  rw [if_pos hw]

theorem Tx.commit_of_wrote {db : Db} {tx : Tx} (hw : tx.wrote = true) :
    tx.commit db = ⟨(tx.draft db).tables, db.version + 1, false, db.closed⟩ := by
  unfold Tx.commit
  rw [if_pos hw, Db.release_of_wrote hw]
  rfl

/-- A transaction that has not written changes nothing when it commits. -/
theorem Tx.commit_of_idle {db : Db} {tx : Tx} (hw : tx.wrote = false) : tx.commit db = db := by
  unfold Tx.commit
  rw [hw]
  rfl

/-! ## Requests to the store -/

namespace Relational

variable {tx : Tx} {db : Db}

/-- How a request for a source ends. -/
theorem addSource_cases (hd : (tx.draft db).WellFormed) (hw : tx.wrote = true → db.writing = true)
    (request : SourceRequest) :
    (∃ content d, (tx.draft db).perform (.source request) = .ok (.source request content, d) ∧
      tx.MayWrite db ∧ Relational.store.addSource request tx db =
        (.ok content, tx.became db d, { db with writing := true })) ∨
    (∃ e tx', Relational.store.addSource request tx db = (.failed e, tx', db) ∧ tx.Looked db tx' ∧
      ∀ deed d, (tx.draft db).perform (.source request) = .ok (deed, d) → ¬ tx.MayWrite db) := by
  have hp := Tx.perform_cases hd hw (.source request)
  simp only [Tx.perform] at hp
  simp only [Relational.store]
  generalize tx.addSource db request = result at hp ⊢
  obtain ⟨answer, tx', db'⟩ := result
  cases answer with
  | ok content =>
    cases hp with
    | done hdone hm => exact Or.inl ⟨content, _, hdone, hm, rfl⟩
  | error e =>
    cases hp with
    | refused hl hno => exact Or.inr ⟨e, tx', rfl, hl, hno⟩

/-- How a request for a file or directory ends. -/
theorem addFile_cases (hd : (tx.draft db).WellFormed) (hw : tx.wrote = true → db.writing = true)
    (request : FileRequest) :
    (∃ id d, (tx.draft db).perform (.file request) = .ok (.file request id, d) ∧
      tx.MayWrite db ∧ Relational.store.addFile request tx db =
        (.ok id, tx.became db d, { db with writing := true })) ∨
    (∃ e tx', Relational.store.addFile request tx db = (.failed e, tx', db) ∧ tx.Looked db tx' ∧
      ∀ deed d, (tx.draft db).perform (.file request) = .ok (deed, d) → ¬ tx.MayWrite db) := by
  have hp := Tx.perform_cases hd hw (.file request)
  simp only [Tx.perform] at hp
  simp only [Relational.store]
  generalize tx.addFile db request = result at hp ⊢
  obtain ⟨answer, tx', db'⟩ := result
  cases answer with
  | ok id =>
    cases hp with
    | done hdone hm => exact Or.inl ⟨id, _, hdone, hm, rfl⟩
  | error e =>
    cases hp with
    | refused hl hno => exact Or.inr ⟨e, tx', rfl, hl, hno⟩

/-- A source is recorded by a transaction that may write. -/
theorem addSource_done (hd : (tx.draft db).WellFormed) (hw : tx.wrote = true → db.writing = true)
    (hm : tx.MayWrite db) (request : SourceRequest) :
    Relational.store.addSource request tx db =
      (.ok ⟨(tx.draft db).nextId, (tx.draft db).tables.rows.nameFor request.name?, request.device⟩,
        tx.became db
          ((tx.draft db).withSource request ((tx.draft db).tables.rows.nameFor request.name?)),
        { db with writing := true }) := by
  rcases addSource_cases hd hw request with ⟨content, d, hdone, _, hadd⟩ | ⟨_, _, _, _, hno⟩
  · cases hdone
    exact hadd
  · exact absurd hm (hno _ _ rfl)

/-- A file or directory is recorded by a transaction that may write, if its draft does not refuse it. -/
theorem addFile_done (hd : (tx.draft db).WellFormed) (hw : tx.wrote = true → db.writing = true)
    (hm : tx.MayWrite db) {request : FileRequest} {id : ObjectId} {d : Draft}
    (hdone : (tx.draft db).perform (.file request) = .ok (.file request id, d)) :
    Relational.store.addFile request tx db =
      (.ok id, tx.became db d, { db with writing := true }) := by
  rcases addFile_cases hd hw request with ⟨id', d', hdone', _, hadd⟩ | ⟨_, _, _, _, hno⟩
  · rw [hdone] at hdone'
    cases hdone'
    exact hadd
  · exact absurd hm (hno _ _ hdone)

/-- What the draft refuses is refused. -/
theorem addFile_refused (hd : (tx.draft db).WellFormed) (hw : tx.wrote = true → db.writing = true)
    {request : FileRequest} {e : Failure} (hno : (tx.draft db).perform (.file request) = .error e) :
    ∃ e' tx', Relational.store.addFile request tx db = (.failed e', tx', db) ∧ tx.Looked db tx' := by
  rcases addFile_cases hd hw request with ⟨_, _, hdone, _, _⟩ | ⟨e', tx', hadd, hl, _⟩
  · rw [hno] at hdone
    cases hdone
  · exact ⟨e', tx', hadd, hl⟩

end Relational

end Casefile
