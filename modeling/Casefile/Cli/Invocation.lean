import Casefile.Cli.Help
import Casefile.Cli.Style
import Casefile.Cli.Table
import Casefile.Json.Coding
import Casefile.Machine
import Casefile.Registry
import Casefile.Workbench

/-!
# One run of the program

* `Environment` — the variables of the environment that matter, a fresh device id and the time, and the way
  through the files.
* `Outcome`, `Refusal` — what a command ends with, and their texts.
* `execute` — a command on a case.
* `invoke` — a whole run: the exit code, what is written, and the machine afterwards.
-/

set_option autoImplicit false

namespace Casefile.Cli

/-- What a run finds around it. -/
structure Environment where
  home? : Option String
  caseDir? : Option String
  /-- The value that asks for colours. -/
  colours? : Option String
  /-- A device id that has never been given out. -/
  freshId : String
  clock : Clock
  /-- What is come upon below a path. -/
  walk : FileTree → Path → List Finding

/-- A path with the home directory in the place of a leading `~`. -/
def expandHome (home? : Option String) (path : String) : String :=
  match home?, path.toList with
  | some home, ['~'] => home
  | some home, '~' :: '/' :: rest => home ++ String.ofList ('/' :: rest)
  | _, _ => path

namespace Environment

/-- Whether colours are on. -/
def coloured (e : Environment) : Bool :=
  match e.colours? with
  | some value => value ≠ "0"
  | none => false

/-- The case directory of a request: given with it, by the environment, or the usual one. -/
def caseDir (e : Environment) (r : Request) : String :=
  expandHome e.home? ((r.caseDir?.orElse fun _ => e.caseDir?).getD defaultCaseDir)

end Environment

/-- What a command ends with. -/
inductive Outcome where
  | caseReady (dir : String)
  | added (report : Report)
  | sources (names : NameMap)
  | processors (types : List String)
  deriving Repr

/-- Why a command could not be carried out. -/
inductive Refusal where
  | cannotOpen (dir : String) (e : Failure)
  | failed (e : Failure)
  | domain (fault : DomainFault)
  | noUsablePaths
  deriving DecidableEq, Repr

namespace Outcome

/-- The exit code: a source that was not added counts as a failure. -/
def code : Outcome → Nat
  | .added report => if report.verdict = .criticalErrors then 1 else 0
  | _ => 0

/-- The first line of a report. -/
def headline (coloured : Bool) : Verdict → String
  | .noErrors => Style.good.paint coloured "✓ Data source added"
  | .nonCriticalErrors => Style.doubtful.paint coloured "✓ Data source added with errors"
  | .criticalErrors => Style.bad.paint coloured "✗ Data source not added"

/-- A line about a new data source. -/
def contentLine (coloured : Bool) (c : Content) : String :=
  "  " ++ Style.strong.paint coloured "•" ++ " " ++ c.name ++ " (" ++ toString c.objectId
    ++ ") device " ++ c.device.text

/-- A line about an error. -/
def errorLine (coloured : Bool) (text : String) : String :=
  "  " ++ Style.alarm.paint coloured "!" ++ " " ++ text

/-- The lines of a report. -/
def reportLines (coloured : Bool) (r : Report) : List String :=
  headline coloured r.verdict :: r.contents.map (contentLine coloured)
    ++ r.errors.map (errorLine coloured)

/-- What is written about an outcome. The list of processors and the word about a new case are the
same with and without JSON. -/
def text (json coloured : Bool) : Outcome → String
  | .caseReady dir => Style.good.paint coloured ("✓ Case ready in " ++ dir) ++ "\n"
  | .added report =>
    if json then report.toJson.pretty ++ "\n"
    else String.join ((reportLines coloured report).map (· ++ "\n"))
  | .sources names =>
    if json then names.toJson.pretty ++ "\n"
    else if names = [] then Style.remark.paint coloured "No data sources" ++ "\n"
    else drawTable ["id", "name"] (names.map fun (id, name) => [toString id, name])
  | .processors types => drawTable ["data_source_type"] (types.map fun t => [t])

end Outcome

namespace Refusal

/-- What lies behind a failure, beside its own message. -/
def causeOf : Failure → List String
  | .io fault => [fault.message]
  | .domain fault => [fault.message]
  | _ => []

/-- The message of a refusal and what led to it. -/
def account : Refusal → String × List String
  | .cannotOpen dir e =>
    ("Failed to open case database in " ++ dir, e.message :: causeOf e)
  | .failed e => (e.message, causeOf e)
  | .domain fault => (fault.message, [])
  | .noUsablePaths => ("No usable paths given", [])

/-- The causes under their heading; several are numbered from 0. -/
def causesText : List String → String
  | [] => ""
  | [cause] => "\nCaused by:\n    " ++ cause ++ "\n"
  | causes =>
    "\nCaused by:\n" ++ String.join ((List.range causes.length).zip causes |>.map fun (i, cause) =>
      "    " ++ toString i ++ ": " ++ cause ++ "\n")

def text (r : Refusal) : String :=
  "Error: " ++ r.account.1 ++ "\n" ++ causesText r.account.2

end Refusal

/-- The processors of the program. -/
def registry : Registry Processor := ⟨[(Processor.dataSourceType, .start)]⟩

/-- What the workbench of a run has around it. -/
def surroundings (e : Environment) (tree : FileTree) : Surroundings Db Tx :=
  ⟨Relational.store, [], .ofTreeWith e.walk tree, fun _ => e.freshId, e.clock⟩

/-- The case in a directory, named after it. -/
def caseLabel (dir : String) : CaseLabel :=
  ⟨(Path.ofString dir).label, dir⟩

/-- A workbench on an opened case. -/
def workbench (dir : String) (db : Db) : Workbench Db :=
  .start (CurrentCase.closed.enter (caseLabel dir)) db

/-- Adds local files by way of the panel, the way a host with a window does. -/
def addByPanel (s : Surroundings Db Tx) (name : String) (paths : List Path) (w : Workbench Db) :
    Except Refusal Report × Workbench Db :=
  let panel := (w.processor.panel.setPaths paths).setFileSetName name
  let w := { w with processor := { w.processor with panel } }
  if w.processor.panel.isValid then
    match w.run s .quiet with
    | (.ok record, w) => (.ok record.report, w)
    | (.error e, w) => (.error (.failed e), w)
  else (.error .noUsablePaths, w)

/-- Adds local files under a device id that is given. -/
def addByDevice (s : Surroundings Db Tx) (device name : String) (paths : List Path)
    (w : Workbench Db) : Except Refusal Report × Workbench Db :=
  match w.runWith s .quiet device name paths with
  | (.ok record, w) => (.ok record.report, w)
  | (.error fault, w) => (.error (.domain fault), w)

/-- Adds an image. -/
def addImage (s : Surroundings Db Tx) (device : String) (paths : List String) (db : Db) :
    Except Refusal Report × Db :=
  match DeviceId.ofString device with
  | .error fault => (.error (.domain fault), db)
  | .ok device =>
    match s.store.imageAtOnce ⟨device, paths, s.clock.timeZone, s.clock.now⟩ db with
    | (.ok content, db) => (.ok (.added content []), db)
    | (.failed e, db) => (.error (.failed e), db)
    | (.panicked text, db) => (.error (.failed (.internal text)), db)

/-- The data sources of a case. -/
def listSources (s : Surroundings Db Tx) (naming : Naming) (w : Workbench Db) :
    Except Refusal NameMap :=
  match (w.names s naming).1 with
  | .ok names => .ok names
  | .failed e => .error (.failed e)
  | .panicked text => .error (.failed (.internal text))

/-- A command on the case in `dir`, which has been opened. -/
def execute (e : Environment) (tree : FileTree) (dir : String) (command : Command) (db : Db) :
    Except Refusal Outcome × Db :=
  let s := surroundings e tree
  let w := workbench dir db
  match command with
  | .createCase => (.ok (.caseReady dir), db)
  | .addLocalFiles name none paths =>
    let (answer, w) := addByPanel s name paths w
    (answer.map .added, w.db.inner)
  | .addLocalFiles name (some device) paths =>
    let (answer, w) := addByDevice s device name paths w
    (answer.map .added, w.db.inner)
  | .addImage device? paths =>
    let (answer, db) := addImage s (device?.getD e.freshId) paths db
    (answer.map .added, db)
  | .dataSources fullPath =>
    ((listSources s (if fullPath then .full else .short) w).map .sources, db)
  | .processors => (.ok (.processors registry.types), db)

/-- What a run ends with. -/
structure Exit where
  code : Nat
  output : String
  error? : Option String
  deriving DecidableEq, Repr

/-- Carries a request out. The case is opened first, whatever the command is. -/
def fulfil (e : Environment) (r : Request) (m : Machine) : Except Refusal Outcome × Machine :=
  let dir := e.caseDir r
  match m.openCase e.clock.now (Path.ofString dir) with
  | (.error failure, m) => (.error (.cannotOpen dir failure), m)
  | (.ok opened, m) =>
    let (answer, db) := execute e m.tree dir r.command opened.db
    (answer, m.save opened.site db.committed)

/-- A run of the program. -/
def invoke (e : Environment) (args : List Word) (m : Machine) : Exit × Machine :=
  match Request.ofArguments args with
  | .error .misuse => (⟨2, "", none⟩, m)
  | .error .version => (⟨0, versionText, none⟩, m)
  | .error (.help level) => (⟨0, level.helpText e.caseDir?, none⟩, m)
  | .ok r =>
    match fulfil e r m with
    | (.ok outcome, m) => (⟨outcome.code, outcome.text r.json e.coloured, none⟩, m)
    | (.error refusal, m) => (⟨1, "", some refusal.text⟩, m)

end Casefile.Cli
