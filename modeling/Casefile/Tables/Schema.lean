import Casefile.Tables.Writing

/-!
# The schema of a case database

* `Tables.version` — the largest version recorded, 0 if there is none.
* `Tables.installSchema` — makes the tables that are missing and records version 1.
* `Tables.migrate` — brings a database that is behind up to date.
-/

set_option autoImplicit false

namespace Casefile

namespace Tables

/-- The version of the schema that this library works with. -/
def latestVersion : Int := 1

/-- The largest version recorded; 0 if there is none or no table for it. -/
def version (t : Tables) : Int :=
  match t.versions with
  | none => 0
  | some rows => ((rows.map (·.version)).max?).getD 0

/-- The tables with those that are missing made, empty. -/
def createMissing (t : Tables) : Tables where
  objects := some (t.objects.getD [])
  sourceInfo := some (t.sourceInfo.getD [])
  files := some (t.files.getD [])
  filePaths := some (t.filePaths.getD [])
  imageNames := some (t.imageNames.getD [])
  versions := some (t.versions.getD [])

/-- Makes the missing tables and records the latest version, all or nothing. -/
def installSchema (now : Int) (t : Tables) : Except Failure Tables :=
  let made := t.createMissing
  match insertByKey VersionRow.version ⟨latestVersion, .int now⟩ (t.versions.getD []) with
  | some rows => .ok { made with versions := some rows }
  | none => .error (taken versionsName "version")

/-- The tables of an up-to-date database; one that is not behind is left as it is. -/
def migrate (now : Int) (t : Tables) : Except Failure Tables :=
  if t.version < latestVersion then t.installSchema now else .ok t

/-- The tables of a case just opened for the first time. -/
def fresh (now : Int) : Tables :=
  { bare.createMissing with versions := some [⟨latestVersion, .int now⟩] }

end Tables

end Casefile
