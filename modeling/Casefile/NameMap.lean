import Casefile.Store

/-!
# The names of the data sources of a case

* `NameMap` — names by object id, in ascending order of the ids.
* `NameMap.merge` — the names in a listing of logical sources and one of images. Of logical sources
  with one id the last gives the name; an image names only an id that has no name yet.
* `NameMap.load` — the names in the two listings of a case database.
-/

set_option autoImplicit false

namespace Casefile

/-- Names by object id, in ascending order of the ids. -/
abbrev NameMap := List (ObjectId × String)

/-- Whether images go by the last segment of their path or by the whole path. -/
inductive Naming where
  | short
  | full
  deriving DecidableEq, Repr

/-- The name of an image. -/
def Naming.image : Naming → String → String
  | .short, path => shortName path
  | .full, path => path

namespace NameMap

/-- The map with a name for an id, in the place of one that it had. -/
def set (id : ObjectId) (name : String) : NameMap → NameMap
  | [] => [(id, name)]
  | (k, v) :: rest =>
    if id < k then (id, name) :: (k, v) :: rest
    else if id = k then (id, name) :: rest
    else (k, v) :: set id name rest

/-- The name of an id. -/
def find? (m : NameMap) (id : ObjectId) : Option String :=
  m.lookup id

/-- The map with a name for an id that has none; otherwise unchanged. -/
def setIfAbsent (id : ObjectId) (name : String) (m : NameMap) : NameMap :=
  if (m.find? id).isSome then m else set id name m

/-- The names in a listing of logical sources and one of images. -/
def merge (naming : Naming) (logical images : List SourceRow) : NameMap :=
  let m := logical.foldl (fun m r => set r.objectId r.name m) []
  images.foldl (fun m r => setIfAbsent r.objectId (naming.image r.name) m) m

variable {σ τ : Type}

/-- The names in the two listings of a case database; the first failure is the answer. -/
def load (naming : Naming) (db : Store σ τ) (s : σ) : Reply NameMap × σ :=
  match db.logicalSources s with
  | (.failed e, s) => (.failed e, s)
  | (.panicked text, s) => (.panicked text, s)
  | (.ok logical, s) =>
    match db.imageSources s with
    | (.failed e, s) => (.failed e, s)
    | (.panicked text, s) => (.panicked text, s)
    | (.ok images, s) => (.ok (merge naming logical images), s)

end NameMap

end Casefile
