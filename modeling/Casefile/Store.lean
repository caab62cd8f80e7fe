import Casefile.DataSource
import Casefile.Reply
import Casefile.Scan

/-!
# Case databases

* `Store` — what a case database with states `σ` and open transactions `τ` can do.
* `Store.imageAtOnce` — a transaction that records one image.

Ending a transaction with `commit` or `rollback` uses it up, whatever the answer; one that is let go
with `drop` leaves nothing behind either.
-/

set_option autoImplicit false

namespace Casefile

/-- A logical data source to be recorded; without a name it gets a default one. -/
structure SourceRequest where
  device : DeviceId
  name? : Option String
  timeZone : String
  addedAt : Int
  deriving DecidableEq, Repr

/-- A file or directory to be recorded below an object of the same transaction. -/
structure FileRequest where
  source : ObjectId
  parent : ObjectId
  entry : Entry
  deriving DecidableEq, Repr

/-- A disk image to be recorded, with the paths of its segments in order. -/
structure ImageRequest where
  device : DeviceId
  paths : List String
  timeZone : String
  addedAt : Int
  deriving DecidableEq, Repr

/-- What a case database can do. -/
structure Store (σ τ : Type) where
  begin : σ → Reply τ × σ
  addSource : SourceRequest → τ → σ → Reply Content × τ × σ
  addFile : FileRequest → τ → σ → Reply ObjectId × τ × σ
  addImage : ImageRequest → τ → σ → Reply Content × τ × σ
  commit : τ → σ → Reply Unit × σ
  rollback : τ → σ → Reply Unit × σ
  drop : τ → σ → σ
  logicalSources : σ → Reply (List SourceRow) × σ
  imageSources : σ → Reply (List SourceRow) × σ

namespace Store

variable {σ τ : Type}

/-- Records an image in a transaction of its own. -/
def imageAtOnce (db : Store σ τ) (image : ImageRequest) (s : σ) : Reply Content × σ :=
  match db.begin s with
  | (.failed e, s) => (.failed e, s)
  | (.panicked p, s) => (.panicked p, s)
  | (.ok tx, s) =>
    match db.addImage image tx s with
    | (.ok content, tx, s) =>
      match db.commit tx s with
      | (.ok (), s) => (.ok content, s)
      | (.failed e, s) => (.failed e, s)
      | (.panicked p, s) => (.panicked p, s)
    | (answer, tx, s) => (answer, db.drop tx s)

end Store

end Casefile
