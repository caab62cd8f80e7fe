import Casefile.Failure
import Casefile.Path

/-!
# Scans of local paths

* `Entry` — a file or directory found under a scanned path.
* `Scan` — all that was found under one path, parents before their children, and what could not be
  read.
-/

set_option autoImplicit false

namespace Casefile

/-- What is taken in of an object: a directory, or anything else as a file. -/
inductive EntryKind where
  | file
  | directory
  deriving DecidableEq, Repr

/-- The word that stands for a kind in data. -/
def EntryKind.code : EntryKind → String
  | .file => "FILE"
  | .directory => "DIRECTORY"

/-- A file or directory found under a scanned path. -/
structure Entry where
  path : Path
  name : String
  kind : EntryKind
  size : Nat
  /-- Seconds since 1970. -/
  modified : Option Int
  /-- The place of the parent among the entries of the same scan; none for the scanned path. -/
  parent : Option Nat
  deriving DecidableEq, Repr

/-- All that was found under one path. -/
structure Scan where
  entries : List Entry
  errors : List String
  deriving DecidableEq, Repr

namespace Scan

def empty : Scan := ⟨[], []⟩

/-- The scan with one more entry. -/
def addEntry (s : Scan) (e : Entry) : Scan :=
  { s with entries := s.entries ++ [e] }

/-- The scan with one more error. -/
def addError (s : Scan) (text : String) : Scan :=
  { s with errors := s.errors ++ [text] }

end Scan

end Casefile
