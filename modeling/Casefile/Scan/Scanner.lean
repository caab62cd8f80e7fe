import Casefile.Reply
import Casefile.Scan.Walk

/-!
# Scanners

* `Scanner` — what scans paths for a run; its answers may depend on how often it was asked.
* `Scanner.ofTreeWith`, `Scanner.ofTree` — scans a file tree.
* `Scanner.scripted` — answers from a list.
-/

set_option autoImplicit false

namespace Casefile

/-- What scans paths for a run: the answer to the request of a given number, counted from 0. The
number matters where things change between two requests. -/
abbrev Scanner := Nat → Path → Reply Scan

namespace Scanner

/-- Scans a file tree that stays as it is by a way to walk through it. -/
def ofTreeWith (walk : FileTree → Path → List Finding) (t : FileTree) : Scanner :=
  fun _ root => .ofExcept (t.scanWith walk root)

/-- Scans a file tree that stays as it is and in which everything can be read. -/
def ofTree (t : FileTree) : Scanner :=
  ofTreeWith FileTree.walk t

/-- Answers with what the list holds for a path of the same bytes; no other path exists. -/
def scripted (answers : List (Path × Reply Scan)) : Scanner :=
  fun _ root =>
    match answers.find? (·.1 = root) with
    | some (_, answer) => answer
    | none => .failed (.notFound root.display)

end Scanner

end Casefile
