import Casefile.Failure
import Casefile.Path
import Casefile.Text.Quoted

/-!
# The case that is open

* `CaseLabel` — the name and directory of a case.
* `CurrentCase` — the one case that is open, if any.
-/

set_option autoImplicit false

namespace Casefile

/-- The name and directory of a case. -/
structure CaseLabel where
  name : String
  directory : String
  deriving DecidableEq, Repr

/-- The case as it is shown in diagnostics. -/
def CaseLabel.description (c : CaseLabel) : String :=
  "Case \x7b name: " ++ Text.quoted c.name ++ ", directory: " ++ Text.quoted c.directory
    ++ ", .. \x7d"

/-- The one case that is open, if any. -/
structure CurrentCase where
  label? : Option CaseLabel
  deriving DecidableEq, Repr

namespace CurrentCase

def closed : CurrentCase := ⟨none⟩

/-- Opens a case in the place of one that is open. -/
def enter (_ : CurrentCase) (c : CaseLabel) : CurrentCase := ⟨some c⟩

/-- Closes the case that is open. -/
def leave (c : CurrentCase) : Option CaseLabel × CurrentCase := (c.label?, closed)

def isOpen (c : CurrentCase) : Bool := c.label?.isSome

/-- The case that is open. -/
def get (c : CurrentCase) : Except Failure CaseLabel :=
  match c.label? with
  | some label => .ok label
  | none => .error .noCurrentCase

end CurrentCase

end Casefile
