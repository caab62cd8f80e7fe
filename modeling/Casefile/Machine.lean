import Casefile.FileTree.Growth
import Casefile.Store.Relational

/-!
# A machine with cases on it

A case lives in a directory, in a file of its own that holds the case database.

* `Machine` — a file tree and the tables in the database files on it, each under its location.
* `Machine.openCase` — opens the case in a directory, which is made if it is missing, and brings the
  tables up to date.
* `Machine.save` — puts tables back into a database file.
* `Machine.tables?` — the tables of the case in a directory.
-/

set_option autoImplicit false

namespace Casefile

namespace FileTree

/-- The length of a location written as an absolute path. -/
def locationLength (loc : Location) : Nat :=
  loc.foldl (fun length n => length + n.length + 1) 0

/-- Where the steps `names` lead from `loc` if what is missing on the way is taken to be there. Every
link is followed, but no more than `links`. -/
def trace (t : FileTree) (links : Nat) (loc : Location) : List Name → Option Location
  | [] => some loc
  | n :: rest =>
    if n = [Path.dot] then t.trace links loc rest
    else if n = [Path.dot, Path.dot] then t.trace links loc.dropLast rest
    else if maxName < n.length ∨ (t.at? loc).any (!·.isDir) then none
    else
      match t.at? (loc ++ [n]) with
      | some (.link _ target _) =>
        match links with
        | 0 => none
        | links + 1 =>
          let aim : Path := ⟨target⟩
          t.trace links (if aim.isAbsolute then [] else loc) (aim.steps ++ rest)
      | _ => t.trace links (loc ++ [n]) rest
  termination_by names => (links, names.length)

end FileTree

/-- The name of the file that holds the database of a case. -/
def caseFileName : Name := Text.Utf8.bytes "case.db"

/-- The longest absolute path of a file that a database is kept in. -/
def maxCaseFilePath : Nat := 504

/-- The number of links that are followed on the way to a database file. -/
def maxCaseFileLinks : Nat := 101

/-- The largest file that is taken for an empty one. -/
def emptyFileSize : Nat := 1

/-- A file tree and the tables in the database files on it. -/
structure Machine where
  tree : FileTree
  databases : List (Location × Tables)
  deriving Repr

/-- A case that has been opened: its database and where the file with it is. -/
structure OpenedCase where
  site : Location
  db : Db
  deriving Repr

namespace Machine

/-- A machine on which there is no case yet. -/
def ofTree (tree : FileTree) : Machine :=
  ⟨tree, []⟩

/-- The location of the database file of the case in a directory; the file need not be there. -/
def caseSite? (m : Machine) (dir : Path) : Option Location :=
  let file := dir.child caseFileName
  match m.tree.trace maxCaseFileLinks (if file.isAbsolute then [] else m.tree.cwd) file.steps with
  | some site => if maxCaseFilePath < FileTree.locationLength site then none else some site
  | none => none

/-- The machine with tables in a database file. -/
def save (m : Machine) (site : Location) (t : Tables) : Machine :=
  { m with databases := (site, t) :: m.databases.filter (·.1 ≠ site) }

/-- The machine with an empty file at a location. -/
def makeFile (m : Machine) (now : Int) (site : Location) : Machine :=
  match site.getLast? with
  | some n => { m with tree := m.tree.insert (.file n 0 now) site.dropLast }
  | none => m

/-- The tables in the file at a location; an empty file holds a database without tables, and is made
if it is missing. -/
def tablesAt (m : Machine) (now : Int) (site : Location) : Except Failure (Tables × Machine) :=
  match m.databases.lookup site with
  | some t => .ok (t, m)
  | none =>
    match m.tree.at? site with
    | some (.file _ size _) =>
      if size ≤ emptyFileSize then .ok (.bare, m) else .error (.database .notADatabase)
    | some _ => .error (.database .cannotOpen)
    | none =>
      if (m.tree.at? site.dropLast).any (·.isDir) then .ok (.bare, m.makeFile now site)
      else .error (.database .cannotOpen)

/-- Opens the case in a directory. -/
def openCase (m : Machine) (now : Int) (dir : Path) : Except Failure OpenedCase × Machine :=
  match m.tree.makeDirs now dir with
  | (.error e, tree) => (.error (.io e), { m with tree })
  | (.ok (), tree) =>
    let m := { m with tree }
    match m.caseSite? dir with
    | none => (.error (.database .cannotOpen), m)
    | some site =>
      match m.tablesAt now site with
      | .error e => (.error e, m)
      | .ok (t, m) =>
        match (Db.ofTables t).migrate now with
        | .error e => (.error e, m)
        | .ok db => (.ok ⟨site, db⟩, m.save site db.committed)

/-- The tables of the case in a directory. -/
def tables? (m : Machine) (dir : Path) : Option Tables :=
  (m.caseSite? dir).bind fun site => m.databases.lookup site

end Machine

end Casefile
