import Casefile.Cli.Scene

/-!
# The program

Runs with the arguments of its command line on the machine that standard input describes, in the lines
of a scene.
-/

set_option autoImplicit false

namespace Casefile.Cli

/-- The lines of a stream, without their ends. -/
partial def readLines (input : IO.FS.Stream) (before : List String) : IO (List String) := do
  let line ← input.getLine
  if line.isEmpty then
    return before.reverse
  else
    let text := String.ofList (Text.dropEndWhile (· = '\n') line.toList)
    readLines input (text :: before)

/-- The settings that the environment of this process makes. -/
def readSettings : IO Settings := do
  let seed ← IO.getRandomBytes 16
  return {
    home? := ← IO.getEnv "HOME"
    caseDir? := ← IO.getEnv "CASEBOOK_CASE_DIR"
    colours? := ← IO.getEnv "CLICOLOR_FORCE"
    ids := .random seed.data.toList }

end Casefile.Cli

open Casefile.Cli in
def main (args : List String) : IO UInt32 := do
  let settings ← readSettings
  let lines ← readLines (← IO.getStdin) []
  let words := args.map Casefile.Text.Utf8.bytes
  let (exit, _) := (lines.foldl (Scene.line settings) .start).invoke settings words
  IO.print exit.output
  IO.eprint (exit.error?.getD "")
  return UInt32.ofNat exit.code
