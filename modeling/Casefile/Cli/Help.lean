import Casefile.Cli.Arguments

/-!
# What the program says about itself

* `Level.helpText` — the answer to a request for help on a level: what it is for, how it is used, and what it
  understands.
* `version`, `versionText` — the answer to a request for the version.

The texts are those of a terminal without colours.
-/

set_option autoImplicit false

namespace Casefile.Cli

/-- The version of the program. -/
def version : String := "0.1.0"

/-- What asking for the version is answered with. -/
def versionText : String := "casebook " ++ version ++ "\n"

/-- The case directory if none is given. -/
def defaultCaseDir : String := "~/.casebook/case"

namespace Switch

def about : Switch → String
  | .caseDir => "Case directory (holds the case database)"
  | .json => "Print results as JSON"
  | .help => "Print help"
  | .version => "Print version"
  | .rootName => "Name of the root virtual directory (default: LogicalFileSet<N>)"
  | .deviceId => "Device id (default: a new UUID)"
  | .fullPath => "Show full image paths instead of file names"

/-- The value of a switch that is not given. -/
def usual? : Switch → Option String
  | .caseDir => some defaultCaseDir
  | .rootName => some ""
  | _ => none

/-- The line on a switch in two columns. One that the environment has a value for tells about it. -/
def helpLine (caseDir? : Option String) (s : Switch) : String × String :=
  let letter := match s.letter? with
    | some c => "-" ++ String.singleton c ++ ", "
    | none => "    "
  let value := match s.valueName? with
    | some value => " <" ++ value ++ ">"
    | none => ""
  let given := if s = .caseDir then " [env: CASEBOOK_CASE_DIR=" ++ caseDir?.getD "" ++ "]" else ""
  let usual := match s.usual? with
    | some usual => " [default: " ++ usual ++ "]"
    | none => ""
  (letter ++ "--" ++ s.name ++ value, s.about ++ given ++ usual)

end Switch

/-- What the command for help is for. -/
def helpAbout : String := "Print this message or the help of the given subcommand(s)"

namespace CommandName

def about : CommandName → String
  | .createCase => "Create the case database (no-op if it exists)"
  | .addLocalFiles => "Add local files and directories as one logical data source"
  | .addImage => "Record a disk image data source (segment paths, first segment first)"
  | .dataSources => "List data sources of the case"
  | .processors => "List available data source processors"

/-- The operands of a command in two columns. -/
def operandsHelp : CommandName → List (String × String)
  | .addLocalFiles => [("<PATHS>...", "Files and/or directories")]
  | .addImage => [("<PATHS>...", "")]
  | _ => []

end CommandName

namespace Level

def about : Level → String
  | .program => "Add and list data sources of a forensic case"
  | .command name => name.about
  | .help => helpAbout

def usage : Level → String
  | .program => "casebook [OPTIONS] <COMMAND>"
  | .command name =>
    "casebook " ++ name.text ++ " [OPTIONS]" ++ (if name.operands = .none then "" else " <PATHS>...")
  | .help => "casebook help [COMMAND]..."

/-- What stands in the help on a level besides its switches. -/
def sections : Level → List (String × List (String × String))
  | .program =>
    [("Commands", CommandName.all.map (fun name => (name.text, name.about)) ++ [(helpName, helpAbout)])]
  | .command name => [("Arguments", name.operandsHelp)]
  | .help => [("Arguments", [("[COMMAND]...", "Print help for the subcommand(s)")])]

end Level

/-- Lines of two columns, the first as wide as is needed. -/
def columnLines (rows : List (String × String)) : String :=
  let width := ((rows.map (·.1.length)).max?).getD 0
  String.join <| rows.map fun (left, right) =>
    "  " ++ left ++ String.ofList (List.replicate (width - left.length + 2) ' ') ++ right ++ "\n"

/-- The help on a level, where the environment may have a case directory. -/
def Level.helpText (caseDir? : Option String) (level : Level) : String :=
  let sections := level.sections ++ [("Options", level.switches.map (·.helpLine caseDir?))]
  let shown := sections.filter fun part => part.2 ≠ []
  level.about ++ "\n\nUsage: " ++ level.usage ++ "\n" ++ String.join (shown.map fun part =>
    "\n" ++ part.1 ++ ":\n" ++ columnLines part.2)

end Casefile.Cli
