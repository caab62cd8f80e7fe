import Casefile.Store

/-!
# Several transactions at once

* `Session` — a database with its open transactions, each under a name.
* `Session.step` — one call to one of the transactions; a history is a list of calls.

A transaction that is begun under a name in use takes the place of the one before, which is dropped.
-/

set_option autoImplicit false

namespace Casefile

/-- A call to a database, or to one of its open transactions by name. -/
inductive Action where
  | begin (tx : String)
  | addSource (tx : String) (source : SourceRequest)
  | addFile (tx : String) (file : FileRequest)
  | addImage (tx : String) (image : ImageRequest)
  | commit (tx : String)
  | rollback (tx : String)
  | drop (tx : String)
  deriving DecidableEq, Repr

/-- What a call is answered with. -/
inductive Answer where
  | done (r : Reply Unit)
  | content (r : Reply Content)
  | object (r : Reply ObjectId)
  /-- There is no open transaction of the name. -/
  | noTransaction
  deriving DecidableEq, Repr

/-- A database with its open transactions. -/
structure Session (σ τ : Type) where
  db : σ
  opened : List (String × τ)
  deriving Repr

namespace Session

variable {σ τ : Type}

def start (db : σ) : Session σ τ :=
  ⟨db, []⟩

/-- The open transaction of a name. -/
def find? (s : Session σ τ) (tx : String) : Option τ :=
  s.opened.lookup tx

/-- The open transactions without the one of a name. -/
def others (s : Session σ τ) (tx : String) : List (String × τ) :=
  s.opened.filter (·.1 ≠ tx)

/-- The session with the transaction of a name replaced, and the database after a call to it. -/
def after (s : Session σ τ) (name : String) (tx : τ) (db : σ) : Session σ τ :=
  ⟨db, (name, tx) :: s.others name⟩

/-- The session with the transaction of a name gone, and the database after its end. -/
def without (s : Session σ τ) (name : String) (db : σ) : Session σ τ :=
  ⟨db, s.others name⟩

/-- One call. -/
def step (store : Store σ τ) (s : Session σ τ) : Action → Answer × Session σ τ
  | .begin name =>
    match store.begin s.db with
    | (.ok tx, db) =>
      match s.find? name with
      | some old => (.done (.ok ()), s.after name tx (store.drop old db))
      | none => (.done (.ok ()), s.after name tx db)
    | (.failed e, db) => (.done (.failed e), { s with db })
    | (.panicked text, db) => (.done (.panicked text), { s with db })
  | .addSource name source =>
    match s.find? name with
    | none => (.noTransaction, s)
    | some tx =>
      let (answer, tx, db) := store.addSource source tx s.db
      (.content answer, s.after name tx db)
  | .addFile name file =>
    match s.find? name with
    | none => (.noTransaction, s)
    | some tx =>
      let (answer, tx, db) := store.addFile file tx s.db
      (.object answer, s.after name tx db)
  | .addImage name image =>
    match s.find? name with
    | none => (.noTransaction, s)
    | some tx =>
      let (answer, tx, db) := store.addImage image tx s.db
      (.content answer, s.after name tx db)
  | .commit name =>
    match s.find? name with
    | none => (.noTransaction, s)
    | some tx =>
      let (answer, db) := store.commit tx s.db
      (.done answer, s.without name db)
  | .rollback name =>
    match s.find? name with
    | none => (.noTransaction, s)
    | some tx =>
      let (answer, db) := store.rollback tx s.db
      (.done answer, s.without name db)
  | .drop name =>
    match s.find? name with
    | none => (.noTransaction, s)
    | some tx => (.done (.ok ()), s.without name (store.drop tx s.db))

/-- The answers to a history of calls, and the session after it. -/
def run (store : Store σ τ) : Session σ τ → List Action → List Answer × Session σ τ
  | s, [] => ([], s)
  | s, a :: actions =>
    let (answer, s) := s.step store a
    let (answers, s) := run store s actions
    (answer :: answers, s)

/-- The session with every open transaction dropped. -/
def dropAll (store : Store σ τ) (s : Session σ τ) : Session σ τ :=
  ⟨s.opened.foldl (fun db o => store.drop o.2 db) s.db, []⟩

end Session

end Casefile
