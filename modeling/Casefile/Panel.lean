import Casefile.DataSource
import Casefile.Text.Pieces

/-!
# The panel for local files

* `splitPaths` — the paths in a text: the pieces between commas, trimmed, without the blank ones.
* `Panel` — the settings that a host fills in: a text with paths and the name of the file set.
-/

set_option autoImplicit false

namespace Casefile

/-- The character between two paths in the text of a panel. -/
def pathSeparator : Char := ','

/-- The pieces of a text between commas, trimmed, without the blank ones. -/
def splitTexts (text : String) : List String :=
  ((Text.pieces pathSeparator text.toList).map fun p => String.ofList (Text.trimChars p)).filter
    (· ≠ "")

/-- The paths in a text. -/
def splitPaths (text : String) : List Path :=
  (splitTexts text).map Path.ofString

/-- The settings that a host fills in. -/
structure Panel where
  contentPaths : String
  fileSetName : String
  deriving DecidableEq, Repr

namespace Panel

def empty : Panel := ⟨"", ""⟩

def setContentPaths (text : String) (p : Panel) : Panel :=
  { p with contentPaths := text }

/-- The panel with the given paths, one behind the other. -/
def setPaths (paths : List Path) (p : Panel) : Panel :=
  p.setContentPaths
    (String.ofList (Text.joined pathSeparator (paths.map fun q => q.display.toList)))

def setFileSetName (name : String) (p : Panel) : Panel :=
  { p with fileSetName := name }

/-- The paths that the panel asks for. -/
def paths (p : Panel) : List Path :=
  splitPaths p.contentPaths

/-- Whether the panel asks for anything. -/
def isValid (p : Panel) : Bool :=
  !p.paths.isEmpty

/-- The settings in one line. -/
def summary (p : Panel) : String :=
  toString p.paths.length ++ " path(s), file set "
    ++ if p.fileSetName = "" then "<default>" else p.fileSetName

end Panel

end Casefile
