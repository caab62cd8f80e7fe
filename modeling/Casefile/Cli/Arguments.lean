import Casefile.Path

/-!
# The grammar of the command line

* `Word` — an argument, which need not be text. `Argument` — an argument by its shape: long switch, short
  switches, the end of all switches, or plain.
* `Switch`, `Operands`, `CommandName`, `Level` — what the program and its commands understand.
* `Reading`, `readLevel` — the switches and operands of one level, the program's or a command's.
* `Request` — what a command line asks for, and `Request.ofArguments` which reads it.
* `Stop` — why the reading ends early: the grammar is not followed, or help or the version is asked for.

A switch that takes a value takes the next plain argument, or what stands behind `=`, or, for a short
one, what stands directly behind it. No switch is given twice on one level, and values are text. Switches
and operands may be mixed; behind `--` everything is an operand. Help and the version are given as soon as
they are asked for, provided that there was no mistake before.
-/

set_option autoImplicit false

namespace Casefile.Cli

/-- The bytes of an argument. -/
abbrev Word := List UInt8

/-- The byte of `-`. -/
def dash : UInt8 := 0x2D

/-- The byte of `=`. -/
def equals : UInt8 := 0x3D

/-- An argument by its shape. -/
inductive Argument where
  | long (name : Word) (value? : Option Word)
  | shorts (letters : Word)
  | endOfSwitches
  | plain (word : Word)
  deriving DecidableEq, Repr

/-- The shape of an argument behind two dashes. -/
def Argument.ofLong (word : Word) : Argument :=
  if word = [] then .endOfSwitches
  else match word.dropWhile (· ≠ equals) with
    | [] => .long word none
    | _ :: value => .long (word.takeWhile (· ≠ equals)) (some value)

/-- The shape of an argument. A single dash is plain. -/
def Argument.ofWord : Word → Argument
  | b :: c :: word =>
    if b ≠ dash then .plain (b :: c :: word)
    else if c = dash then .ofLong word
    else .shorts (c :: word)
  | word => .plain word

/-! ## What is understood -/

/-- The switches of the program and its commands. -/
inductive Switch where
  | caseDir
  | json
  | help
  | version
  | rootName
  | deviceId
  | fullPath
  deriving DecidableEq, Repr

namespace Switch

def name : Switch → String
  | .caseDir => "case-dir"
  | .json => "json"
  | .help => "help"
  | .version => "version"
  | .rootName => "name"
  | .deviceId => "device-id"
  | .fullPath => "full-path"

def letter? : Switch → Option Char
  | .help => some 'h'
  | .version => some 'V'
  | .rootName => some 'n'
  | _ => none

/-- What the value of a switch is called, if it takes one. -/
def valueName? : Switch → Option String
  | .caseDir => some "CASE_DIR"
  | .rootName => some "NAME"
  | .deviceId => some "DEVICE_ID"
  | _ => none

/-- Whether this is the switch of a short name. -/
def hasLetter (byte : UInt8) (s : Switch) : Bool :=
  s.letter?.map Char.toUInt8 = some byte

/-- Whether this is the switch of a long name. -/
def hasName (word : Word) (s : Switch) : Bool :=
  Text.Utf8.bytes s.name = word

end Switch

/-- What a command makes of arguments that are not switches: nothing, texts, or paths. -/
inductive Operands where
  | none
  | texts
  | paths
  deriving DecidableEq, Repr

/-- Whether an argument is such an operand; the empty one is no path. -/
def Operands.admits : Operands → Word → Bool
  | .none, _ => false
  | .texts, word => (Text.Utf8.text? word).isSome
  | .paths, word => word ≠ []

/-- The commands. -/
inductive CommandName where
  | createCase
  | addLocalFiles
  | addImage
  | dataSources
  | processors
  deriving DecidableEq, Repr

namespace CommandName

/-- All commands, in the order of the help. -/
def all : List CommandName := [.createCase, .addLocalFiles, .addImage, .dataSources, .processors]

def text : CommandName → String
  | .createCase => "create-case"
  | .addLocalFiles => "add-local-files"
  | .addImage => "add-image"
  | .dataSources => "data-sources"
  | .processors => "processors"

/-- The command that an argument names. -/
def ofWord? (word : Word) : Option CommandName :=
  all.find? fun name => Text.Utf8.bytes name.text = word

def operands : CommandName → Operands
  | .addLocalFiles => .paths
  | .addImage => .texts
  | _ => .none

def switches : CommandName → List Switch
  | .addLocalFiles => [.rootName, .deviceId, .json, .help]
  | .addImage => [.deviceId, .json, .help]
  | .dataSources => [.fullPath, .json, .help]
  | _ => [.json, .help]

end CommandName

/-- A level of the command line, on which help can be asked for: that of the program, that of a command, and
that of the command for help. -/
inductive Level where
  | program
  | command (name : CommandName)
  | help
  deriving DecidableEq, Repr

namespace Level

def switches : Level → List Switch
  | .program => [.caseDir, .json, .help, .version]
  | .command name => name.switches
  | .help => []

def operands : Level → Operands
  | .command name => name.operands
  | _ => .none

end Level

/-- Why the reading of a command line ends early. -/
inductive Stop where
  /-- It does not follow the grammar. -/
  | misuse
  /-- It asks for the version of the program. -/
  | version
  /-- It asks for help. -/
  | help (level : Level)
  deriving DecidableEq, Repr

/-! ## Reading one level -/

/-- What has been read of a level. -/
structure Reading where
  given : List (Switch × String)
  operands : List Word
  /-- The last switch, until it is done with: it waits for its value, or the value has not been looked at. -/
  pending? : Option (Switch × Option Word)
  /-- Whether the end of all switches has been seen. -/
  onlyOperands : Bool
  deriving DecidableEq, Repr

namespace Reading

def start : Reading := ⟨[], [], none, false⟩

/-- The value of a switch, empty for one without values. -/
def value? (r : Reading) (s : Switch) : Option String :=
  r.given.lookup s

/-- The reading with a switch and its value, which has to be text. -/
def record (s : Switch) (value : Word) (r : Reading) : Except Stop Reading :=
  match Text.Utf8.text? value with
  | none => .error .misuse
  | some text =>
    if (r.value? s).isSome then .error .misuse else .ok { r with given := r.given ++ [(s, text)] }

/-- The reading with the last switch done with. -/
def settle (r : Reading) : Except Stop Reading :=
  match r.pending? with
  | none => .ok r
  | some (_, none) => .error .misuse
  | some (s, some value) => { r with pending? := none }.record s value

/-- The reading with a switch and its value, or what the switch asks for. -/
def give (level : Level) (s : Switch) (value : Word) (r : Reading) : Except Stop Reading := do
  let r ← r.settle
  match s with
  | .help => throw (.help level)
  | .version => throw .version
  | s => r.record s value

/-- The reading with a switch that waits for its value. -/
def await (s : Switch) (r : Reading) : Except Stop Reading := do
  let r ← r.settle
  return { r with pending? := some (s, none) }

/-- The reading with one more operand. -/
def addOperand (level : Level) (word : Word) (r : Reading) : Except Stop Reading := do
  let r ← r.settle
  if level.operands.admits word then return { r with operands := r.operands ++ [word] }
  else throw .misuse

/-- The reading after short switches in one argument. -/
def giveShorts (level : Level) : Word → Reading → Except Stop Reading
  | [], r => .ok r
  | b :: bs, r =>
    match level.switches.find? (·.hasLetter b) with
    | none => .error .misuse
    | some s =>
      if s.valueName?.isSome then
        match bs with
        | [] => r.await s
        | c :: value => r.give level s (if c = equals then value else c :: value)
      else
        match r.give level s [] with
        | .ok r => giveShorts level bs r
        | .error stop => .error stop

/-- The reading after a long switch. -/
def giveLong (level : Level) (name : Word) (value? : Option Word) (r : Reading) : Except Stop Reading :=
  match level.switches.find? (·.hasName name), value? with
  | none, _ => .error .misuse
  | some s, some value => if s.valueName?.isSome then r.give level s value else .error .misuse
  | some s, none => if s.valueName?.isSome then r.await s else r.give level s []

/-- Whether an argument is an operand here: plain, and no switch waits for it as its value. -/
def takesAsOperand (r : Reading) (word : Word) : Bool :=
  r.onlyOperands ||
    match Argument.ofWord word, r.pending? with
    | .plain _, some (_, none) => false
    | .plain _, _ => true
    | _, _ => false

/-- The reading after one more argument. -/
def next (level : Level) (word : Word) (r : Reading) : Except Stop Reading :=
  if r.takesAsOperand word then r.addOperand level word
  else
    match Argument.ofWord word with
    | .endOfSwitches => .ok { r with onlyOperands := true }
    | .long name value? => r.giveLong level name value?
    | .shorts letters => r.giveShorts level letters
    | .plain word => .ok { r with pending? := r.pending?.map fun (s, _) => (s, some word) }

end Reading

/-- Reads a level to its end. A command that takes operands needs one. -/
def readLevel (level : Level) : Reading → List Word → Except Stop Reading
  | r, [] => do
    let r ← r.settle
    if level.operands ≠ .none ∧ r.operands = [] then throw .misuse
    return r
  | r, word :: words => do
    let r ← r.next level word
    readLevel level r words

/-- Reads the level of the program up to its first operand, which names a command; gives that and the
arguments behind it, too. The last switch before it has not been done with yet. -/
def readToCommand : Reading → List Word → Except Stop (Reading × Word × List Word)
  | _, [] => .error .misuse
  | r, word :: words =>
    if r.takesAsOperand word then
      if r.onlyOperands then .error .misuse else .ok (r, word, words)
    else
      match r.next .program word with
      | .error stop => .error stop
      | .ok r => readToCommand r words

/-! ## Requests -/

/-- A command with its settings. -/
inductive Command where
  | createCase
  | addLocalFiles (name : String) (device? : Option String) (paths : List Path)
  | addImage (device? : Option String) (paths : List String)
  | dataSources (fullPath : Bool)
  | processors
  deriving DecidableEq, Repr

/-- What a command line asks for. -/
structure Request where
  caseDir? : Option String
  json : Bool
  command : Command
  deriving DecidableEq, Repr

/-- The command of a name with what was read for it. The operands of an image are texts. -/
def Command.ofReading (r : Reading) : CommandName → Command
  | .createCase => .createCase
  | .addLocalFiles =>
    .addLocalFiles ((r.value? .rootName).getD "") (r.value? .deviceId) (r.operands.map Path.mk)
  | .addImage => .addImage (r.value? .deviceId) (r.operands.filterMap Text.Utf8.text?)
  | .dataSources => .dataSources (r.value? .fullPath).isSome
  | .processors => .processors

/-- The name of the command for help. -/
def helpName : String := "help"

/-- What the command for help answers: help on the program, or on the command that its arguments name. -/
def Stop.ofHelp : List Word → Stop
  | [] => .help .program
  | [word] =>
    if word = Text.Utf8.bytes helpName then .help .help
    else
      match CommandName.ofWord? word with
      | some name => .help (.command name)
      | none => .misuse
  | _ => .misuse

/-- What a command line asks for. The level of the program is done with last. -/
def Request.ofArguments (words : List Word) : Except Stop Request := do
  let (outer, word, words) ← readToCommand .start words
  if word = Text.Utf8.bytes helpName then throw (.ofHelp words)
  match CommandName.ofWord? word with
  | none => throw .misuse
  | some name =>
    let inner ← readLevel (.command name) .start words
    let outer ← outer.settle
    return {
      caseDir? := outer.value? .caseDir
      json := (outer.value? .json).isSome || (inner.value? .json).isSome
      command := .ofReading inner name }

end Casefile.Cli
