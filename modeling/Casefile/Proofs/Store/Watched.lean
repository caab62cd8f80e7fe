import Casefile.Ingest

/-!
# Watching a case database

* `StoreCall` — a call to a case database, with what it asks for.
* `Store.watched` — a database that keeps a list of the calls made to it.
* `Store.Projects` — a database does what another does, apart from a part of its state that only it has.

Principal results: `Ingest.run_projects` — a run on such a database is the run on the other one.
`Store.watched_projects` — so watching a database changes nothing.
-/

set_option autoImplicit false

namespace Casefile

/-- A call to a case database. -/
inductive StoreCall where
  | begin
  | addSource (request : SourceRequest)
  | addFile (request : FileRequest)
  | addImage (request : ImageRequest)
  | commit
  | rollback
  | drop
  | logicalSources
  | imageSources
  deriving DecidableEq, Repr

/-- The entry that is to be recorded. -/
def StoreCall.entry? : StoreCall → Option Entry
  | .addFile request => some request.entry
  | _ => none

/-- A database with the calls that have been made to it, in their order. -/
structure Watched (σ : Type) where
  inner : σ
  calls : List StoreCall

namespace Watched

variable {σ : Type}

/-- A database that no call has been made to. -/
def start (s : σ) : Watched σ :=
  ⟨s, []⟩

/-- What a call has made of the database. -/
def note (w : Watched σ) (call : StoreCall) (s : σ) : Watched σ :=
  ⟨s, w.calls ++ [call]⟩

/-- The entries that were handed over to be recorded. -/
def entries (w : Watched σ) : List Entry :=
  w.calls.filterMap StoreCall.entry?

@[simp] theorem note_inner (w : Watched σ) (call : StoreCall) (s : σ) : (w.note call s).inner = s := rfl

@[simp] theorem mem_note_calls {w : Watched σ} {call c : StoreCall} {s : σ} :
    c ∈ (w.note call s).calls ↔ c ∈ w.calls ∨ c = call := by
  simp [note]

@[simp] theorem note_entries (w : Watched σ) (call : StoreCall) (s : σ) :
    (w.note call s).entries = w.entries ++ call.entry?.toList := by
  cases h : call.entry? <;> simp [note, entries, h]

end Watched

namespace Store

variable {σ σ' τ : Type}

/-- The database with a list of the calls made to it. -/
def watched (db : Store σ τ) : Store (Watched σ) τ where
  begin w :=
    let (answer, s) := db.begin w.inner
    (answer, w.note .begin s)
  addSource source tx w :=
    let (answer, tx, s) := db.addSource source tx w.inner
    (answer, tx, w.note (.addSource source) s)
  addFile file tx w :=
    let (answer, tx, s) := db.addFile file tx w.inner
    (answer, tx, w.note (.addFile file) s)
  addImage image tx w :=
    let (answer, tx, s) := db.addImage image tx w.inner
    (answer, tx, w.note (.addImage image) s)
  commit tx w :=
    let (answer, s) := db.commit tx w.inner
    (answer, w.note .commit s)
  rollback tx w :=
    let (answer, s) := db.rollback tx w.inner
    (answer, w.note .rollback s)
  drop tx w := w.note .drop (db.drop tx w.inner)
  logicalSources w :=
    let (answer, s) := db.logicalSources w.inner
    (answer, w.note .logicalSources s)
  imageSources w :=
    let (answer, s) := db.imageSources w.inner
    (answer, w.note .imageSources s)

/-- What a run asks of a database, it answers like another one, and changes `f` of its state in the same way. -/
structure Projects (store : Store σ τ) (store' : Store σ' τ) (f : σ → σ') : Prop where
  begin : ∀ s, store'.begin (f s) = ((store.begin s).1, f (store.begin s).2)
  addSource : ∀ request tx s, store'.addSource request tx (f s) =
    ((store.addSource request tx s).1, (store.addSource request tx s).2.1,
      f (store.addSource request tx s).2.2)
  addFile : ∀ request tx s, store'.addFile request tx (f s) =
    ((store.addFile request tx s).1, (store.addFile request tx s).2.1,
      f (store.addFile request tx s).2.2)
  commit : ∀ tx s, store'.commit tx (f s) = ((store.commit tx s).1, f (store.commit tx s).2)
  rollback : ∀ tx s, store'.rollback tx (f s) = ((store.rollback tx s).1, f (store.rollback tx s).2)
  drop : ∀ tx s, store'.drop tx (f s) = f (store.drop tx s)

/-- **Watching a database changes nothing.** -/
theorem watched_projects (store : Store σ τ) : store.watched.Projects store Watched.inner :=
  ⟨fun _ => rfl, fun _ _ _ => rfl, fun _ _ _ => rfl, fun _ _ => rfl, fun _ _ => rfl, fun _ _ => rfl⟩

end Store

/-! ## Runs -/

namespace Ingest

variable {σ σ' τ : Type} {store : Store σ τ} {store' : Store σ' τ} {f : σ → σ'} {host : Host}

/-- A run while it writes, seen through `f`. -/
def Writing.map (f : σ → σ') (w : Writing σ τ) : Writing σ' τ :=
  ⟨w.progress, w.tx, f w.db⟩

theorem writeEntries_projects (h : store.Projects store' f) (source : ObjectId) :
    ∀ (entries : List Entry) (ids : List ObjectId) (w : Writing σ τ),
      writeEntries store' host source entries ids (w.map f) =
        ((writeEntries store host source entries ids w).1,
          (writeEntries store host source entries ids w).2.map f)
  | [], ids, w => rfl
  | entry :: entries, ids, ⟨p, tx, db⟩ => by
    show writeEntries store' host source (entry :: entries) ids ⟨p, tx, f db⟩ = _
    unfold writeEntries
    by_cases hcancelled : host.cancelled p = true
    · simp only [hcancelled, if_true]
      rfl
    · simp only [hcancelled]
      rcases host.announce p ("Adding: " ++ entry.path.display) with ⟨q, text?⟩
      cases text? with
      | some text => rfl
      | none =>
        cases parentId source ids entry with
        | error e => rfl
        | ok parent =>
          simp only [h.addFile]
          rcases store.addFile ⟨source, parent, entry⟩ tx db with ⟨answer, tx, db⟩
          cases answer with
          | failed e => rfl
          | panicked text => rfl
          | ok id => exact writeEntries_projects h source entries (ids ++ [id]) ⟨q, tx, db⟩

theorem writeScans_projects (h : store.Projects store' f) (source : ObjectId) :
    ∀ (scans : List Scan) (w : Writing σ τ),
      writeScans store' host source scans (w.map f) =
        ((writeScans store host source scans w).1, (writeScans store host source scans w).2.map f)
  | [], w => rfl
  | scan :: scans, w => by
    unfold writeScans
    rw [writeEntries_projects h]
    rcases writeEntries store host source scan.entries [] w with ⟨answer, w₁⟩
    cases answer with
    | error setback => rfl
    | ok _ => exact writeScans_projects h source scans w₁

variable {clock : Clock} {config : SourceConfig}

theorem writeAll_projects (h : store.Projects store' f) (scans : List Scan) (w : Writing σ τ) :
    writeAll store' host clock config scans (w.map f) =
      ((writeAll store host clock config scans w).1, (writeAll store host clock config scans w).2.map f) := by
  unfold writeAll
  simp only [Writing.map, h.addSource]
  rcases store.addSource (sourceRequest clock config) w.tx w.db with ⟨answer, tx, db⟩
  cases answer with
  | failed e => rfl
  | panicked text => rfl
  | ok content =>
    have hscans : writeScans store' host content.objectId scans ⟨w.progress, tx, f db⟩ = _ :=
      writeScans_projects h content.objectId scans { w with tx, db }
    simp only [hscans]
    rcases writeScans store host content.objectId scans { w with tx, db } with ⟨answer, w₁⟩
    cases answer <;> rfl

theorem conclude_projects (h : store.Projects store' f) (errors : List String)
    (written : Except Setback Content) (tx : τ) (db : σ) :
    conclude store' errors written tx (f db) =
      ((conclude store errors written tx db).1, f (conclude store errors written tx db).2) := by
  cases written with
  | ok content =>
    simp only [conclude, h.commit]
    rcases store.commit tx db with ⟨answer, db₁⟩
    cases answer <;> rfl
  | error setback =>
    cases setback with
    | broken text => simp only [conclude, h.drop]
    | _ =>
      simp only [conclude, abandon, h.rollback]
      rcases store.rollback tx db with ⟨answer, db₁⟩
      cases answer <;> rfl

/-- What the work of a run leaves behind, seen through `f`. -/
def Worked.map (f : σ → σ') (w : Worked σ) : Worked σ' :=
  ⟨w.progress, w.ending, f w.db⟩

theorem record_projects (h : store.Projects store' f) (scans : List Scan) (p : Progress) (db : σ) :
    record store' host clock config scans p (f db) =
      (record store host clock config scans p db).map f := by
  unfold record
  rw [h.begin]
  rcases store.begin db with ⟨answer, db₁⟩
  cases answer with
  | failed e => rfl
  | panicked text => rfl
  | ok tx =>
    have hall : writeAll store' host clock config scans ⟨p, tx, f db₁⟩ = _ :=
      writeAll_projects h scans ⟨p, tx, db₁⟩
    simp only [hall, Writing.map, conclude_projects h]
    rfl

theorem work_projects (h : store.Projects store' f) (scanner : Scanner) (current : Reply Unit)
    (p : Progress) (db : σ) :
    work store' scanner host clock current config p (f db) =
      (work store scanner host clock current config p db).map f := by
  unfold work
  simp only
  cases host.onStart with
  | some text => rfl
  | none =>
    cases current with
    | failed e => rfl
    | panicked text => rfl
    | ok _ =>
      simp only
      rcases scanAll scanner host 0 config.paths (p.showIndeterminate true) with ⟨answer, q⟩
      cases answer with
      | error halt => rfl
      | ok scans => exact record_projects h scans q db

/-- **A run is the same on both databases.** -/
theorem run_projects (h : store.Projects store' f) (scanner : Scanner) (current : Reply Unit) (db : σ) :
    run store' scanner host clock current config (f db) =
      ⟨(run store scanner host clock current config db).progress,
        (run store scanner host clock current config db).report,
        f (run store scanner host clock current config db).db⟩ := by
  unfold run
  rw [work_projects h]
  rfl

end Ingest

end Casefile
