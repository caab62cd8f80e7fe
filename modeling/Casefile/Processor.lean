import Casefile.DeviceIds
import Casefile.Panel

/-!
# The processor for local files

* `Processor` — a panel, the configuration of the next run if it has been settled, and the number of
  device ids drawn so far.
* `Processor.configForRun` — settles the configuration at the first run; later runs use the same one
  until `reset`.
* `Processor.setOptions` — settles a configuration without the panel.
* `Processor.cancel`, `Processor.reset` — the other calls of a host.
-/

set_option autoImplicit false

namespace Casefile

/-- The type of data source that the processor takes in. -/
def Processor.dataSourceType : String := "Logical Files"

/-- The state of a processor. -/
structure Processor where
  panel : Panel
  configured? : Option SourceConfig
  drawn : Nat
  deriving DecidableEq, Repr

namespace Processor

def start : Processor := ⟨.empty, none, 0⟩

/-- The next device id out of a supply. -/
def newDevice (ids : DeviceIds) (p : Processor) : Except Failure DeviceId × Processor :=
  let p' := { p with drawn := p.drawn + 1 }
  match DeviceId.ofString (ids p.drawn) with
  | .ok device => (.ok device, p')
  | .error fault => (.error (.domain fault), p')

/-- Settles a configuration under a new device id. -/
def configure (ids : DeviceIds) (rootName : String) (paths : List Path) (p : Processor) :
    Except Failure SourceConfig × Processor :=
  match p.newDevice ids with
  | (.error e, p) => (.error e, p)
  | (.ok device, p) =>
    match SourceConfig.create device rootName paths with
    | .error fault => (.error (.domain fault), p)
    | .ok config => (.ok config, { p with configured? := some config })

/-- Settles a configuration for the paths in a text, under the default name. -/
def setOptions (ids : DeviceIds) (text : String) (p : Processor) :
    Except Failure SourceConfig × Processor :=
  p.configure ids "" (splitPaths text)

/-- The configuration of a run that goes by the panel. -/
def configForRun (ids : DeviceIds) (p : Processor) : Except Failure SourceConfig × Processor :=
  match p.configured? with
  | some config => (.ok config, p)
  | none =>
    if p.panel.isValid then p.configure ids p.panel.fileSetName p.panel.paths
    else (.error (.validation "Local files panel has no paths"), p)

/-- A request to stop, which is accepted and ignored: a run is stopped by its own host. -/
def cancel (p : Processor) : Processor := p

/-- Empties the panel and forgets the configuration. -/
def reset (p : Processor) : Processor :=
  { p with panel := .empty, configured? := none }

end Processor

end Casefile
