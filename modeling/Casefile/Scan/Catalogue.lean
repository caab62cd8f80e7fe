import Casefile.Scan.Scanner

/-!
# Scans from a catalogue

A catalogue holds scans of directories under the paths they are known by; two spellings of the same
steps are one path.

* `Catalogue.enter` — a directory with files of given names.
* `Catalogue.report` — one more error of a directory that is known.
* `Catalogue.scan` — the scan of a path.
-/

set_option autoImplicit false

namespace Casefile

/-- Scans under the paths they are known by; no two of the paths have the same steps. -/
abbrev Catalogue := List (Path × Scan)

namespace Catalogue

/-- The scan of a directory that holds files of size 1 with the given names and nothing else. -/
def listing (root : Path) (files : List String) : Scan where
  entries :=
    ⟨root, root.label, .directory, 0, none, none⟩ ::
      files.map fun f => ⟨root.join (.ofString f), f, .file, 1, none, some 0⟩
  errors := []

/-- The catalogue with a scan under a path, in the place of one under another spelling of it. -/
def put (root : Path) (s : Scan) : Catalogue → Catalogue
  | [] => [(root, s)]
  | (p, old) :: rest => if p.same root then (p, s) :: rest else (p, old) :: put root s rest

/-- The scan under a path. -/
def find? (c : Catalogue) (root : Path) : Option Scan :=
  match List.find? (fun e => e.1.same root) c with
  | some (_, s) => some s
  | none => none

/-- The catalogue with a directory that holds files of the given names. -/
def enter (root : Path) (files : List String) (c : Catalogue) : Catalogue :=
  c.put root (listing root files)

/-- The catalogue with one more error of a directory; unchanged if the directory is unknown. -/
def report (root : Path) (error : String) (c : Catalogue) : Catalogue :=
  match c.find? root with
  | some s => c.put root (s.addError error)
  | none => c

/-- The scan of a path. -/
def scan (c : Catalogue) (root : Path) : Except Failure Scan :=
  match c.find? root with
  | some s => .ok s
  | none => .error (.notFound root.display)

/-- The scanner that answers from a catalogue. -/
def scanner (c : Catalogue) : Scanner :=
  fun _ root => .ofExcept (c.scan root)

end Catalogue

end Casefile
