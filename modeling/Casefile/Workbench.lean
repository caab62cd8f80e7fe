import Casefile.CurrentCase
import Casefile.Ingest
import Casefile.NameMap
import Casefile.Processor
import Casefile.Store.Faulty

/-!
# A workbench: a processor, a case and its database

* `Workbench` — what a host works with, and `Surroundings`, what stays the same meanwhile.
* `Workbench.run`, `Workbench.runWith` — runs that go by the panel or by settings of their own.
* `Workbench.names` — the names of the sources of the case that is open.
-/

set_option autoImplicit false

namespace Casefile

/-- What stays the same while a host works: the database's abilities and faults, the scanner, the
supply of device ids and the clock. -/
structure Surroundings (σ τ : Type) where
  store : Store σ τ
  faults : List Fault
  scanner : Scanner
  ids : DeviceIds
  clock : Clock

/-- What a host works with. -/
structure Workbench (σ : Type) where
  processor : Processor
  current : CurrentCase
  db : Metered σ

/-- How a run went, as its host sees it. -/
structure RunRecord where
  config : SourceConfig
  progress : Progress
  report : Report
  wait : Except Failure Unit

namespace Workbench

variable {σ τ : Type}

def start (current : CurrentCase) (db : σ) : Workbench σ :=
  ⟨.start, current, .start db⟩

/-- Runs with a configuration. -/
def ingest (s : Surroundings σ τ) (host : Host) (config : SourceConfig) (w : Workbench σ) :
    RunRecord × Workbench σ :=
  let current := Reply.ofExcept (w.current.get.map fun _ => ())
  let result := Ingest.run (s.store.withFaults s.faults) s.scanner host s.clock current config w.db
  (⟨config, result.progress, result.report, Ingest.wait host⟩, { w with db := result.db })

/-- Runs by the panel, or by the configuration settled before. -/
def run (s : Surroundings σ τ) (host : Host) (w : Workbench σ) :
    Except Failure RunRecord × Workbench σ :=
  match w.processor.configForRun s.ids with
  | (.error e, processor) => (.error e, { w with processor })
  | (.ok config, processor) =>
    let (record, w) := ({ w with processor } : Workbench σ).ingest s host config
    (.ok record, w)

/-- Runs by settings of its own; the processor stays as it is. -/
def runWith (s : Surroundings σ τ) (host : Host) (device rootName : String) (paths : List Path)
    (w : Workbench σ) : Except DomainFault RunRecord × Workbench σ :=
  match DeviceId.ofString device with
  | .error fault => (.error fault, w)
  | .ok device =>
    match SourceConfig.create device rootName paths with
    | .error fault => (.error fault, w)
    | .ok config =>
      let (record, w) := w.ingest s host config
      (.ok record, w)

/-- Opens a case; the calls to its database are counted anew. -/
def openCase (label : CaseLabel) (w : Workbench σ) : Workbench σ :=
  { w with current := w.current.enter label, db := .start w.db.inner }

/-- Closes the case that is open. -/
def closeCase (w : Workbench σ) : Option CaseLabel × Workbench σ :=
  let (label?, current) := w.current.leave
  (label?, { w with current })

/-- The names of the sources of the case that is open. -/
def names (s : Surroundings σ τ) (naming : Naming) (w : Workbench σ) :
    Reply NameMap × Workbench σ :=
  match w.current.get with
  | .error e => (.failed e, w)
  | .ok _ =>
    let (answer, db) := NameMap.load naming (s.store.withFaults s.faults) w.db
    (answer, { w with db })

end Workbench

end Casefile
