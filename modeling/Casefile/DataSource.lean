import Casefile.Failure
import Casefile.Path
import Casefile.Text.Blank

/-!
# Data sources

* `DeviceId` — the id of the device that data came from; `DeviceId.ofString` admits printable ASCII.
* `SourceConfig` — what is to be taken in as one logical data source.
* `Content` — a data source as the case database recorded it.
* `shortName` — the last segment of the path of an image.
* `Verdict` — the overall result of taking a data source in.
-/

set_option autoImplicit false

namespace Casefile

/-- The number a case database gives to an object. -/
abbrev ObjectId := Int

/-- The id of a device. A value read back from elsewhere may hold any text. -/
structure DeviceId where
  text : String
  deriving DecidableEq, Repr

/-- The characters of a device id: ASCII that shows, and the space. -/
def DeviceId.isAdmissible (c : Char) : Bool :=
  0x20 ≤ c.toNat && c.toNat ≤ 0x7E

/-- The device id of a text that has at least one character and only admissible ones. -/
def DeviceId.ofString (s : String) : Except DomainFault DeviceId :=
  if s.toList ≠ [] ∧ s.toList.all isAdmissible then .ok ⟨s⟩ else .error (.invalidDeviceId s)

/-- What is to be taken in as one logical data source. -/
structure SourceConfig where
  device : DeviceId
  rootName : String
  paths : List Path
  deriving DecidableEq, Repr

namespace SourceConfig

/-- A configuration with at least one path. -/
def create (device : DeviceId) (rootName : String) (paths : List Path) :
    Except DomainFault SourceConfig :=
  if paths = [] then .error .noPaths else .ok ⟨device, rootName, paths⟩

/-- The name the source is to have; none if it is blank, which asks for a default name. -/
def explicitName? (c : SourceConfig) : Option String :=
  let name := Text.trim c.rootName
  if name = "" then none else some name

end SourceConfig

/-- A data source as the case database recorded it. -/
structure Content where
  objectId : ObjectId
  name : String
  device : DeviceId
  deriving DecidableEq, Repr

/-- A data source as a listing of the case database shows it. -/
structure SourceRow where
  objectId : ObjectId
  name : String
  deriving DecidableEq, Repr

/-- The separators in the path of an image, which may have been recorded on any system. -/
def isImageSeparator (c : Char) : Bool :=
  c = '/' || c = '\\'

/-- The characters behind the last separator that is followed by anything else, without the
separators at the end. -/
def shortNameChars (cs : List Char) : List Char :=
  ((cs.reverse.dropWhile isImageSeparator).takeWhile (!isImageSeparator ·)).reverse

/-- The last segment of the path of an image; empty if there are only separators. -/
def shortName (path : String) : String :=
  String.ofList (shortNameChars path.toList)

/-- The overall result of taking a data source in. -/
inductive Verdict where
  | noErrors
  | nonCriticalErrors
  | criticalErrors
  deriving DecidableEq, Repr

namespace Verdict

/-- The word that stands for a result in data. -/
def code : Verdict → String
  | noErrors => "NO_ERRORS"
  | nonCriticalErrors => "NON_CRITICAL_ERRORS"
  | criticalErrors => "CRITICAL_ERRORS"

/-- The word that is shown for a result. -/
def label : Verdict → String
  | noErrors => "NO_ERRORS"
  | nonCriticalErrors => "NONCRITICAL_ERRORS"
  | criticalErrors => "CRITICAL_ERRORS"

end Verdict

end Casefile
