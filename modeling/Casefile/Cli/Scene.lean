import Casefile.Cli.Invocation
import Casefile.DeviceIds

/-!
# A machine described in lines

A scene tells what is on a machine before the program runs: the time, the objects on it and earlier
runs, one to a line, with a tab between the parts of a line.

* `time SECONDS` — the time from here on.
* `dir PATH`, `file SIZE PATH`, `link TARGET PATH` — an object, made at that time.
* `run ARGUMENT…` — a run of the program at that time.

Any other line is passed over. `Scene.invoke` runs the program on what the lines have described.
-/

set_option autoImplicit false

namespace Casefile.Cli

/-- A machine, the time on it and the number of runs so far. -/
structure Scene where
  machine : Machine
  now : Int
  runs : Nat

/-- What a run finds in the environment of the program that describes it. -/
structure Settings where
  home? : Option String
  caseDir? : Option String
  colours? : Option String
  ids : DeviceIds

namespace Scene

/-- The directory that relative paths start from. -/
def workingDirectory : Location := [Text.Utf8.bytes "work"]

/-- An empty working directory and nothing else. -/
def start : Scene :=
  ⟨.ofTree (.fresh 0 workingDirectory), 0, 0⟩

/-- The environment of the next run. -/
def environment (s : Scene) (settings : Settings) : Environment :=
  ⟨settings.home?, settings.caseDir?, settings.colours?, settings.ids s.runs, .universal s.now, FileTree.walk⟩

/-- Runs the program. -/
def invoke (settings : Settings) (args : List Word) (s : Scene) : Exit × Scene :=
  let (exit, machine) := Cli.invoke (s.environment settings) args s.machine
  (exit, { s with machine, runs := s.runs + 1 })

/-- The scene with an object on the machine. -/
def add (s : Scene) (o : FileTree.Object) : Scene :=
  { s with machine := { s.machine with tree := s.machine.tree.add s.now o } }

/-- The scene after one more line. -/
def line (settings : Settings) (s : Scene) (text : String) : Scene :=
  match (Text.pieces '\t' text.toList).map String.ofList with
  | ["time", seconds] =>
    match seconds.toInt? with
    | some now => { s with now }
    | none => s
  | ["dir", path] => s.add (.dir (.ofString path) s.now)
  | ["file", size, path] => s.add (.file (.ofString path) (size.toNat?.getD 0) s.now)
  | ["link", target, path] => s.add (.link (.ofString path) (Text.Utf8.bytes target) s.now)
  | "run" :: args => (s.invoke settings (args.map Text.Utf8.bytes)).2
  | _ => s

end Scene

end Casefile.Cli
