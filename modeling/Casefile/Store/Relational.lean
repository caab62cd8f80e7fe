import Casefile.Tables.Edit
import Casefile.Tables.Listing
import Casefile.Tables.Schema

/-!
# The relational case database

* `Db` — the tables committed last, how many commits have written, and whether a transaction is
  writing.
* `Tx` — an open transaction: the tables as it sees them, and the paths of the directories it has
  recorded.
* `Tx.write` — a write: it needs the only write permit and an up-to-date view.
* `Relational.store` — the database as a `Store`.

A transaction's view is fixed at its first read. Its first write takes the permit, which is refused
while another holds it, or if its view is older than the last commit; from then on its writes go to
its view, which a commit makes the committed tables.
-/

set_option autoImplicit false

namespace Casefile

/-- A case database. -/
structure Db where
  committed : Tables
  /-- The number of commits that wrote. -/
  version : Nat
  /-- Whether an open transaction has written. -/
  writing : Bool
  closed : Bool
  deriving DecidableEq, Repr

/-- The tables as a transaction sees them, and the version of the database that they started from. -/
structure View where
  version : Nat
  tables : Tables
  deriving DecidableEq, Repr

/-- An open transaction. -/
structure Tx where
  view? : Option View
  wrote : Bool
  /-- For each source and directory recorded by the transaction the path of what is below it. -/
  childPaths : List (ObjectId × String)
  deriving DecidableEq, Repr

namespace Db

/-- A database at rest, opened. -/
def ofTables (t : Tables) : Db :=
  ⟨t, 0, false, false⟩

/-- The answer of a closed database, and the result of any other. -/
def whileOpen {α : Type} (db : Db) (result : Except Failure α) : Except Failure α :=
  if db.closed then .error (.database .closed) else result

def begin (db : Db) : Except Failure Tx :=
  db.whileOpen (.ok ⟨none, false, []⟩)

def logicalSources (db : Db) : Except Failure (List SourceRow) :=
  db.whileOpen db.committed.logicalSources

def imageSources (db : Db) : Except Failure (List SourceRow) :=
  db.whileOpen db.committed.imageSources

/-- The database without the write permit being held. -/
def release (db : Db) (tx : Tx) : Db :=
  if tx.wrote then { db with writing := false } else db

/-- Brings the schema up to date in a transaction of its own. -/
def migrate (now : Int) (db : Db) : Except Failure Db :=
  db.whileOpen <|
    if db.committed.version < Tables.latestVersion then
      if db.writing then .error (.database .locked)
      else
        match db.committed.installSchema now with
        | .ok t => .ok { db with committed := t, version := db.version + 1 }
        | .error e => .error e
    else .ok db

/-- The database closed; what is at rest stays. -/
def close (db : Db) : Db :=
  { db with closed := true }

/-- Opens what is at rest anew. -/
def reopen (now : Int) (db : Db) : Except Failure Db :=
  (ofTables db.committed).migrate now

/-- Edits what is at rest from outside; none if the schema or a writing transaction forbids it. -/
def edit (e : Edit) (db : Db) : Option (Nat × Db) :=
  if db.writing then none
  else (db.committed.edit e).map fun r =>
    (r.1, { db with committed := r.2, version := db.version + 1 })

/-- The tables at rest as they can be shown; those of a closed database cannot be looked at. -/
def pictures (db : Db) : List Picture :=
  db.committed.pictures.map fun p => if db.closed then { p with rows := none } else p

end Db

namespace Tx

/-- The transaction's view, which is of the committed tables until it is fixed. -/
def look (tx : Tx) (db : Db) : View :=
  tx.view?.getD ⟨db.version, db.committed⟩

/-- The transaction with its view fixed. -/
def fixView (tx : Tx) (db : Db) : Tx :=
  { tx with view? := some (tx.look db) }

/-- The transaction with the write permit, if it may have it. -/
def startWriting (tx : Tx) (db : Db) : Except Failure (Tx × Db) :=
  if tx.wrote then .ok (tx, db)
  else if db.writing then .error (.database .locked)
  else if (tx.look db).version ≠ db.version then .error (.database .outdatedView)
  else .ok ({ tx.fixView db with wrote := true }, { db with writing := true })

/-- A write of the transaction, the first statement of which is for the table of objects. -/
def write {α : Type} (tx : Tx) (db : Db) (statements : Tables → Except Failure α × Tables) :
    Except Failure α × Tx × Db :=
  if (tx.look db).tables.objects = none then
    (.error (Tables.missing Tables.objectsName), tx, db)
  else
    match tx.startWriting db with
    | .error e => (.error e, tx, db)
    | .ok (tx, db) =>
      let view := tx.look db
      let (answer, t) := statements view.tables
      (answer, { tx with view? := some { view with tables := t } }, db)

/-- The name a source gets, and the transaction afterwards; a default name is read off the tables. -/
def sourceName (tx : Tx) (db : Db) : Option String → Except Failure String × Tx
  | some name => (.ok name, tx)
  | none =>
    match (tx.look db).tables.sourceCount with
    | .error e => (.error e, tx)
    | .ok n => (.ok (Tables.defaultSourceName (n + 1)), tx.fixView db)

/-- The path under which the objects directly below an object of the transaction are shown. -/
def childPath? (tx : Tx) (id : ObjectId) : Option String :=
  tx.childPaths.lookup id

def addSource (tx : Tx) (db : Db) (source : SourceRequest) : Except Failure Content × Tx × Db :=
  match tx.sourceName db source.name? with
  | (.error e, tx) => (.error e, tx, db)
  | (.ok name, tx) =>
    match tx.write db (Tables.writeSource source name) with
    | (.error e, tx, db) => (.error e, tx, db)
    | (.ok id, tx, db) =>
      (.ok ⟨id, name, source.device⟩,
        { tx with childPaths := (id, Tables.rootPath name) :: tx.childPaths }, db)

/-- The answer when a parent has not been recorded as a source or directory by the transaction. -/
def unknownParent (id : ObjectId) : Failure :=
  .notFound ("Parent object " ++ toString id ++ " not added in this transaction")

/-- The largest size that a row holds: 2^63 - 1. -/
def maxSize : Nat := 0x7FFFFFFFFFFFFFFF

def tooLarge (path : Path) : Failure :=
  .internal ("File too large: " ++ path.display)

def addFile (tx : Tx) (db : Db) (file : FileRequest) : Except Failure ObjectId × Tx × Db :=
  match tx.childPath? file.parent with
  | none => (.error (unknownParent file.parent), tx, db)
  | some parentPath =>
    if maxSize < file.entry.size then (.error (tooLarge file.entry.path), tx, db)
    else
      match tx.write db (Tables.writeFile file parentPath) with
      | (.error e, tx, db) => (.error e, tx, db)
      | (.ok id, tx, db) =>
        match file.entry.kind with
        | .file => (.ok id, tx, db)
        | .directory =>
          (.ok id, { tx with
            childPaths := (id, parentPath ++ file.entry.name ++ "/") :: tx.childPaths }, db)

/-- The answer to an image of no segments. -/
def noSegments : Failure :=
  .validation "Image has no paths"

def addImage (tx : Tx) (db : Db) (image : ImageRequest) : Except Failure Content × Tx × Db :=
  match image.paths with
  | [] => (.error noSegments, tx, db)
  | first :: _ =>
    match tx.write db (Tables.writeImage image) with
    | (.error e, tx, db) => (.error e, tx, db)
    | (.ok id, tx, db) => (.ok ⟨id, first, image.device⟩, tx, db)

def commit (tx : Tx) (db : Db) : Db :=
  if tx.wrote then
    { db.release tx with committed := (tx.look db).tables, version := db.version + 1 }
  else db

end Tx

/-- The relational case database as a store. -/
def Relational.store : Store Db Tx where
  begin db := (.ofExcept db.begin, db)
  addSource source tx db :=
    let (answer, tx, db) := tx.addSource db source
    (.ofExcept answer, tx, db)
  addFile file tx db :=
    let (answer, tx, db) := tx.addFile db file
    (.ofExcept answer, tx, db)
  addImage image tx db :=
    let (answer, tx, db) := tx.addImage db image
    (.ofExcept answer, tx, db)
  commit tx db := (.ok (), tx.commit db)
  rollback tx db := (.ok (), db.release tx)
  drop tx db := db.release tx
  logicalSources db := (.ofExcept db.logicalSources, db)
  imageSources db := (.ofExcept db.imageSources, db)

end Casefile
