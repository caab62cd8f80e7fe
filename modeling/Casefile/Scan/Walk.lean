import Casefile.FileTree.Walk
import Casefile.Scan

/-!
# Scanning a file tree

* `Collection` — a scan on the way, with a table of the directories among its entries.
* `Collection.take` — adds what a walk comes upon: an entry, or an error.
* `FileTree.scanWith`, `FileTree.scan` — the scan of a root path: all that a walk from it comes upon.

Links are recorded as files and not followed. A root that is a link to a directory is recorded as a
file, too, but the walk goes through what the directory holds; that has no parent among the entries and
is reported as an error.
-/

set_option autoImplicit false

namespace Casefile

namespace Scan

/-- The error text for something that cannot be read under a root. -/
def unreadable (root : Path) : Option Path → IoFault → String
  | some p, e => p.display ++ ": IO error for operation on " ++ p.display ++ ": " ++ e.message
  | none, e => root.display ++ ": " ++ e.message

/-- The error text for an object whose directory is not among the entries. -/
def orphaned (p : Path) : String :=
  p.display ++ ": parent directory was skipped"

/-- A time as entries hold it: none before 1970. -/
def modifiedTime (m : Int) : Option Int :=
  if m < 0 then none else some m

/-- The entry of an object. -/
def entryOf (p : Path) (parent : Option Nat) (look : Look) : Entry where
  path := p
  name := p.label
  kind := if look.isDir then .directory else .file
  size := look.length
  modified := modifiedTime look.modified
  parent := parent

end Scan

/-- A scan on the way, and the directories among its entries with their places, the last first. -/
structure Collection where
  scan : Scan
  folders : List (Path × Nat)

namespace Collection

def empty : Collection := ⟨.empty, []⟩

/-- The place of the directory at a path; two spellings of the same steps are one path. -/
def placeOf? (c : Collection) (p : Path) : Option Nat :=
  (c.folders.find? fun folder => folder.1.same p).map (·.2)

/-- The parent that an object at a path is recorded with: none at the root, and elsewhere the place of
the directory it is in, if that has been recorded. -/
def parentOf? (c : Collection) (p : Path) : Nat → Option (Option Nat)
  | 0 => some none
  | _ + 1 => (p.parent?.bind c.placeOf?).map some

/-- The collection with one more error. -/
def report (text : String) (c : Collection) : Collection :=
  { c with scan := c.scan.addError text }

/-- The collection with one more entry. -/
def record (e : Entry) (c : Collection) : Collection where
  scan := c.scan.addEntry e
  folders :=
    if e.kind = .directory then (e.path, c.scan.entries.length) :: c.folders else c.folders

/-- The collection with what a walk from `root` comes upon. -/
def take (root : Path) (c : Collection) : Finding → Collection
  | .fault path? e => c.report (Scan.unreadable root path? e)
  | .object p depth look =>
    match c.parentOf? p depth with
    | none => c.report (Scan.orphaned p)
    | some parent =>
      match look with
      | .error e => c.report (Scan.unreadable root (some p) e)
      | .ok look => c.record (Scan.entryOf p parent look)

/-- The collection of all that a walk from `root` comes upon. -/
def ofWalk (root : Path) (found : List Finding) : Collection :=
  found.foldl (take root) .empty

end Collection

/-- The scan of the object that `root` leads to, seen without following a link, and of all that `walk` comes
upon from there. -/
def FileTree.scanWith (walk : FileTree → Path → List Finding) (t : FileTree) (root : Path) :
    Except Failure Scan :=
  match t.stat false root with
  | .error e =>
    if e = .os .noSuchFile then
      .error (.notFound ("Local path does not exist: " ++ root.display))
    else .error (.io e)
  | .ok _ => .ok (Collection.ofWalk root (walk t root)).scan

/-- The scan of the object that `root` leads to, and of all below. -/
def FileTree.scan (t : FileTree) (root : Path) : Except Failure Scan :=
  t.scanWith FileTree.walk root

end Casefile
