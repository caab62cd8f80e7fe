import Casefile.Store

/-!
# The case database in memory

* `MemoryDb` — the rows of committed transactions, the last id given out and counts of the calls.
* `MemoryTx` — the rows that an open transaction has added.
* `Memory.store` — the database as a `Store`.

Ids are given out across all transactions and not used again. The rows of a transaction are added
behind those that are there when it commits. Parents and sizes are not looked at.
-/

set_option autoImplicit false

namespace Casefile

/-- A file or directory as the database in memory keeps it. -/
structure MemoryFile where
  id : ObjectId
  parent : ObjectId
  name : String
  deriving DecidableEq, Repr

/-- Rows of the database in memory. -/
structure MemoryRows where
  logical : List SourceRow
  images : List SourceRow
  files : List MemoryFile
  deriving DecidableEq, Repr

/-- Some rows behind others, table by table. -/
def MemoryRows.append (a b : MemoryRows) : MemoryRows :=
  ⟨a.logical ++ b.logical, a.images ++ b.images, a.files ++ b.files⟩

/-- A case database in memory. -/
structure MemoryDb where
  rows : MemoryRows
  lastId : Nat
  commits : Nat
  rollbacks : Nat
  /-- Whether every listing is to fail. -/
  failing : Bool
  deriving DecidableEq, Repr

/-- The rows an open transaction has added. -/
structure MemoryTx where
  staged : MemoryRows
  deriving DecidableEq, Repr

namespace MemoryDb

def empty : MemoryDb :=
  ⟨⟨[], [], []⟩, 0, 0, 0, false⟩

/-- The next id, and the database afterwards. -/
def allocate (db : MemoryDb) : ObjectId × MemoryDb :=
  (Int.ofNat (db.lastId + 1), { db with lastId := db.lastId + 1 })

/-- A listing, unless every listing is to fail. -/
def query (db : MemoryDb) (rows : List SourceRow) : Except Failure (List SourceRow) :=
  if db.failing then .error (.database (.described "mock query failure")) else .ok rows

def logicalSources (db : MemoryDb) : Except Failure (List SourceRow) :=
  db.query db.rows.logical

def imageSources (db : MemoryDb) : Except Failure (List SourceRow) :=
  db.query db.rows.images

/-- The database with a logical source that no transaction added. -/
def withLogical (db : MemoryDb) (row : SourceRow) : MemoryDb :=
  { db with rows := { db.rows with logical := db.rows.logical ++ [row] } }

/-- The database with an image that no transaction added. -/
def withImage (db : MemoryDb) (row : SourceRow) : MemoryDb :=
  { db with rows := { db.rows with images := db.rows.images ++ [row] } }

/-- The names of all files, in the order in which they were committed. -/
def fileNames (db : MemoryDb) : List String :=
  db.rows.files.map (·.name)

end MemoryDb

namespace MemoryTx

def addSource (tx : MemoryTx) (db : MemoryDb) (source : SourceRequest) :
    Content × MemoryTx × MemoryDb :=
  let name := source.name?.getD <|
    "LogicalFileSet" ++ toString (db.rows.logical.length + tx.staged.logical.length + 1)
  let (id, db) := db.allocate
  (⟨id, name, source.device⟩,
    ⟨{ tx.staged with logical := tx.staged.logical ++ [⟨id, name⟩] }⟩, db)

def addFile (tx : MemoryTx) (db : MemoryDb) (file : FileRequest) :
    ObjectId × MemoryTx × MemoryDb :=
  let (id, db) := db.allocate
  (id, ⟨{ tx.staged with files := tx.staged.files ++ [⟨id, file.parent, file.entry.name⟩] }⟩, db)

def addImage (tx : MemoryTx) (db : MemoryDb) (image : ImageRequest) :
    Content × MemoryTx × MemoryDb :=
  let (id, db) := db.allocate
  (⟨id, image.paths.headD "", image.device⟩,
    ⟨{ tx.staged with images := tx.staged.images ++ image.paths.map fun p => ⟨id, p⟩ }⟩, db)

def commit (tx : MemoryTx) (db : MemoryDb) : MemoryDb :=
  { db with rows := db.rows.append tx.staged, commits := db.commits + 1 }

end MemoryTx

/-- The case database in memory as a store. -/
def Memory.store : Store MemoryDb MemoryTx where
  begin db := (.ok ⟨⟨[], [], []⟩⟩, db)
  addSource source tx db :=
    let (content, tx, db) := tx.addSource db source
    (.ok content, tx, db)
  addFile file tx db :=
    let (id, tx, db) := tx.addFile db file
    (.ok id, tx, db)
  addImage image tx db :=
    let (content, tx, db) := tx.addImage db image
    (.ok content, tx, db)
  commit tx db := (.ok (), tx.commit db)
  rollback _ db := (.ok (), { db with rollbacks := db.rollbacks + 1 })
  drop _ db := db
  logicalSources db := (.ofExcept db.logicalSources, db)
  imageSources db := (.ofExcept db.imageSources, db)

end Casefile
