import Casefile.Proofs.Store.Contract
import Casefile.Proofs.Store.Names

/-!
# Whole transactions

* `Operation`, `Transaction` — what is asked of a database from the beginning of a transaction to its end,
  whatever ids the database gives out.
* `Store.transactAll` — transactions one after another, with the answers.
* `Request.deed` — what is recorded for a request under the next id.

Principal results: `Relational.perform_done` and `Memory.perform_eq` — a request to either database is
recorded that way, by a transaction of the one that may write and at any time by the other.
`Draft.perform_proper` — a proper operation is not refused.
-/

set_option autoImplicit false

namespace Casefile

/-- An answer with its value replaced. -/
def Reply.map {α β : Type} (f : α → β) : Reply α → Reply β
  | .ok a => .ok (f a)
  | .failed e => .failed e
  | .panicked text => .panicked text

/-- What is asked of an open transaction. -/
inductive Operation where
  | source (request : SourceRequest)
  /-- A file or directory below what an earlier operation has recorded, by the place of that.  The id of
  the source is made of the ids so far. -/
  | file (sourceOf : List ObjectId → ObjectId) (parent : Nat) (entry : Entry)
  | image (request : ImageRequest)

namespace Operation

/-- The request, given the ids of what was recorded earlier in the transaction. -/
def request (ids : List ObjectId) : Operation → Request
  | .source request => .source request
  | .file sourceOf parent entry => .file ⟨sourceOf ids, ids.getD parent 0, entry⟩
  | .image request => .image request

/-- Others can be recorded below it. -/
def IsFolder : Operation → Prop
  | .source _ => True
  | .file _ _ entry => entry.kind = .directory
  | .image _ => False

/-- The parent has been recorded earlier and the size fits a row; an image has a segment. -/
def Proper (earlier : List Operation) : Operation → Prop
  | .source _ => True
  | .file _ parent entry =>
    entry.size ≤ Tx.maxSize ∧ ∃ op, earlier[parent]? = some op ∧ op.IsFolder
  | .image request => request.paths ≠ []

/-- All operations of a list are proper that come after others. -/
def AllProper : List Operation → List Operation → Prop
  | _, [] => True
  | earlier, op :: ops => op.Proper earlier ∧ AllProper (earlier ++ [op]) ops

end Operation

/-- How a transaction ends. -/
inductive Finish where
  | commit
  | rollback
  | drop
  deriving DecidableEq, Repr

/-- A transaction from its beginning to its end. -/
structure Transaction where
  operations : List Operation
  finish : Finish

/-- All operations of the transaction are proper. -/
def Transaction.Proper (t : Transaction) : Prop :=
  Operation.AllProper [] t.operations

/-- What a transaction is answered with. -/
structure Outcome where
  answers : List (Reply Deed)
  ended : Reply Unit
  deriving DecidableEq, Repr

/-- The id of what was recorded. -/
def Reply.id : Reply Deed → ObjectId
  | .ok deed => deed.id
  | _ => 0

namespace Store

variable {σ τ : Type}

/-- A request to an open transaction. -/
def perform (store : Store σ τ) : Request → τ → σ → Reply Deed × τ × σ
  | .source request, tx, s =>
    let (answer, tx, s) := store.addSource request tx s
    (answer.map (.source request), tx, s)
  | .file request, tx, s =>
    let (answer, tx, s) := store.addFile request tx s
    (answer.map (.file request), tx, s)
  | .image request, tx, s =>
    let (answer, tx, s) := store.addImage request tx s
    (answer.map (.image request), tx, s)

/-- Operations of an open transaction, given the ids of what it has recorded. -/
def operate (store : Store σ τ) : List Operation → List ObjectId → τ → σ → List (Reply Deed) × τ × σ
  | [], _, tx, s => ([], tx, s)
  | op :: ops, ids, tx, s =>
    let (answer, tx, s) := store.perform (op.request ids) tx s
    let (answers, tx, s) := store.operate ops (ids ++ [answer.id]) tx s
    (answer :: answers, tx, s)

/-- The end of a transaction. -/
def finish (store : Store σ τ) : Finish → τ → σ → Reply Unit × σ
  | .commit, tx, s => store.commit tx s
  | .rollback, tx, s => store.rollback tx s
  | .drop, tx, s => (.ok (), store.drop tx s)

/-- A transaction from its beginning to its end. -/
def transact (store : Store σ τ) (t : Transaction) (s : σ) : Outcome × σ :=
  match store.begin s with
  | (.ok tx, s) =>
    let (answers, tx, s) := store.operate t.operations [] tx s
    let (ended, s) := store.finish t.finish tx s
    (⟨answers, ended⟩, s)
  | (.failed e, s) => (⟨[], .failed e⟩, s)
  | (.panicked text, s) => (⟨[], .panicked text⟩, s)

/-- Transactions one after another. -/
def transactAll (store : Store σ τ) : List Transaction → σ → List Outcome × σ
  | [], s => ([], s)
  | t :: ts, s =>
    let (outcome, s) := store.transact t s
    let (outcomes, s) := store.transactAll ts s
    (outcome :: outcomes, s)

end Store

/-! ## What is recorded for a request -/

/-- What is recorded for a request beside a number of logical sources. -/
def Request.deed (count : Nat) (id : ObjectId) : Request → Deed
  | .source request =>
    .source request ⟨id, request.name?.getD (Tables.defaultSourceName (count + 1)), request.device⟩
  | .file request => .file request id
  | .image request => .image request ⟨id, request.paths.headD "", request.device⟩

theorem Request.deed_id (count : Nat) (id : ObjectId) (q : Request) : (q.deed count id).id = id := by
  cases q <;> rfl

namespace Draft

variable {d d' : Draft} {q : Request} {deed : Deed}

/-- What a draft does for a request that it does not refuse. -/
theorem perform_cases (h : d.perform q = .ok (deed, d')) :
    (∃ request, q = .source request ∧
      deed = .source request ⟨d.nextId, d.tables.rows.nameFor request.name?, request.device⟩ ∧
      d' = d.withSource request (d.tables.rows.nameFor request.name?)) ∨
    (∃ request path, q = .file request ∧ deed = .file request d.nextId ∧
      d' = d.withFile request path) ∨
    ∃ request first rest, q = .image request ∧ request.paths = first :: rest ∧
      deed = .image request ⟨d.nextId, first, request.device⟩ ∧ d' = d.withImage request := by
  cases q with
  | source request =>
    cases h
    exact Or.inl ⟨request, rfl, rfl, rfl⟩
  | file request =>
    simp only [perform] at h
    split at h
    · cases h
    · rename_i path _
      split at h
      · cases h
      · cases h
        exact Or.inr (Or.inl ⟨request, path, rfl, rfl, rfl⟩)
  | image request =>
    simp only [perform] at h
    split at h
    · cases h
    · rename_i first rest hpaths
      cases h
      exact Or.inr (Or.inr ⟨request, first, rest, rfl, hpaths, rfl, rfl⟩)

/-- What is recorded for a request that is not refused. -/
theorem perform_deed (h : d.perform q = .ok (deed, d')) :
    deed = q.deed d.tables.rows.sourceCount d.nextId := by
  rcases perform_cases h with ⟨request, rfl, rfl, _⟩ | ⟨request, path, rfl, rfl, _⟩ |
    ⟨request, first, rest, rfl, hpaths, rfl, _⟩
  · rfl
  · rfl
  · show _ = Deed.image request ⟨_, request.paths.headD "", _⟩
    rw [hpaths]
    rfl

/-- The folders of a draft stay folders. -/
theorem perform_childPaths (h : d.perform q = .ok (deed, d')) {id : ObjectId}
    (hl : ∃ path, d.childPaths.lookup id = some path) :
    ∃ path, d'.childPaths.lookup id = some path := by
  have hcons : ∀ new newPath, ∃ path, List.lookup id ((new, newPath) :: d.childPaths) = some path := by
    intro new newPath
    rw [List.lookup_cons]
    split
    · exact ⟨_, rfl⟩
    · exact hl
  rcases perform_cases h with ⟨request, _, _, rfl⟩ | ⟨request, path, _, _, rfl⟩ |
    ⟨request, first, rest, _, _, _, rfl⟩
  · exact hcons _ _
  · unfold withFile
    cases request.entry.kind with
    | file => exact hl
    | directory => exact hcons _ _
  · exact hl

/-- A folder that has been recorded is one of the draft's. -/
theorem perform_folder {op : Operation} {ids : List ObjectId} (hfolder : op.IsFolder)
    (h : d.perform (op.request ids) = .ok (deed, d')) :
    ∃ path, d'.childPaths.lookup deed.id = some path := by
  rcases perform_cases h with ⟨request, _, rfl, rfl⟩ | ⟨request, path, hq, rfl, rfl⟩ |
    ⟨request, first, rest, hq, _⟩
  · exact ⟨_, List.lookup_cons_self⟩
  · cases op with
    | file sourceOf parent entry =>
      cases hq
      have hkind : entry.kind = .directory := hfolder
      unfold withFile
      simp only [hkind]
      exact ⟨_, List.lookup_cons_self⟩
    | source => cases hq
    | image => cases hq
  · cases op with
    | image => exact hfolder.elim
    | source => cases hq
    | file => cases hq

/-- **A proper operation is not refused**, if the folders recorded earlier are those of the draft. -/
theorem perform_proper {earlier : List Operation} {op : Operation} {ids : List ObjectId}
    (hproper : op.Proper earlier)
    (hfolders : ∀ i folder, earlier[i]? = some folder → folder.IsFolder →
      ∃ path, d.childPaths.lookup (ids.getD i 0) = some path) :
    ∃ deed d', d.perform (op.request ids) = .ok (deed, d') := by
  cases op with
  | source request => exact ⟨_, _, rfl⟩
  | file sourceOf parent entry =>
    obtain ⟨hsize, folder, hfolder, his⟩ := hproper
    obtain ⟨path, hpath⟩ := hfolders parent folder hfolder his
    exact ⟨_, _, perform_file_eq hpath (Nat.not_lt.2 hsize)⟩
  | image request =>
    obtain ⟨first, rest, hpaths⟩ := List.exists_cons_of_ne_nil hproper
    exact ⟨_, _, perform_image_eq hpaths⟩

end Draft

/-! ## Requests to either database -/

theorem Relational.perform_eq (q : Request) (tx : Tx) (db : Db) :
    Relational.store.perform q tx db =
      (.ofExcept (tx.perform db q).1, (tx.perform db q).2.1, (tx.perform db q).2.2) := by
  cases q with
  | source request =>
    simp only [Store.perform, Relational.store, Tx.perform]
    rcases tx.addSource db request with ⟨answer | answer, tx', db'⟩ <;> rfl
  | file request =>
    simp only [Store.perform, Relational.store, Tx.perform]
    rcases tx.addFile db request with ⟨answer | answer, tx', db'⟩ <;> rfl
  | image request =>
    simp only [Store.perform, Relational.store, Tx.perform]
    rcases tx.addImage db request with ⟨answer | answer, tx', db'⟩ <;> rfl

/-- **What the draft does for a request is done**, by a transaction that may write. -/
theorem Relational.perform_done {tx : Tx} {db : Db} {q : Request} {deed : Deed} {d : Draft}
    (hd : (tx.draft db).WellFormed) (hw : tx.wrote = true → db.writing = true) (hm : tx.MayWrite db)
    (hdone : (tx.draft db).perform q = .ok (deed, d)) :
    Relational.store.perform q tx db = (.ok deed, tx.became db d, { db with writing := true }) := by
  rw [Relational.perform_eq]
  have hp := Tx.perform_cases hd hw q
  generalize tx.perform db q = result at hp ⊢
  cases hp with
  | done hdone' _ =>
    rw [hdone] at hdone'
    cases hdone'
    rfl
  | refused _ hno => exact absurd hm (hno _ _ hdone)

/-- **The database in memory records whatever it is asked for.** -/
theorem Memory.perform_eq (q : Request) (tx : MemoryTx) (db : MemoryDb) :
    let deed := q.deed (db.rows.logical.length + tx.staged.logical.length) (Int.ofNat (db.lastId + 1))
    Memory.store.perform q tx db =
      (.ok deed, ⟨tx.staged.append (.ofDeed deed)⟩, { db with lastId := db.lastId + 1 }) := by
  cases q with
  | source request =>
    simp [Store.perform, Memory.store, MemoryTx.addSource, MemoryDb.allocate, Reply.map, Request.deed,
      Tables.defaultSourceName, MemoryRows.append, MemoryRows.ofDeed]
  | file request =>
    simp [Store.perform, Memory.store, MemoryTx.addFile, MemoryDb.allocate, Reply.map, Request.deed,
      MemoryRows.append, MemoryRows.ofDeed]
  | image request =>
    simp [Store.perform, Memory.store, MemoryTx.addImage, MemoryDb.allocate, Reply.map, Request.deed,
      MemoryRows.append, MemoryRows.ofDeed]

end Casefile
