import Casefile.Text.Utf8

/-!
# Paths

A path is a list of bytes, as the operating system takes it; it need not be text.

* `Path.components` — the steps of a path: repeated and trailing slashes and inner `.` do not
  count, a leading `.` does.
* `Path.same` — two spellings of the same steps.
* `Path.join` — a path below another; an absolute path replaces it.
* `Path.fileName?` — the last step, if it is a name.
* `Path.display` — the path as text, with U+FFFD for bytes that are not UTF-8.
-/

set_option autoImplicit false

namespace Casefile

/-- The name of an object in a directory. -/
abbrev Name := List UInt8

/-- A path as the operating system takes it. -/
structure Path where
  bytes : List UInt8
  deriving DecidableEq, Repr

/-- One step of a path. -/
inductive Component where
  | root
  | here
  | up
  | name (n : Name)
  deriving DecidableEq, Repr

namespace Path

def slash : UInt8 := 0x2F
def dot : UInt8 := 0x2E

/-- The path a text spells. -/
def ofString (s : String) : Path :=
  ⟨Text.Utf8.bytes s⟩

/-- The path as text, if its bytes are UTF-8. -/
def text? (p : Path) : Option String :=
  Text.Utf8.text? p.bytes

/-- The path as text, with U+FFFD for bytes that are not UTF-8. -/
def display (p : Path) : String :=
  Text.Utf8.lossy p.bytes

@[simp] theorem display_ofString (s : String) : (ofString s).display = s := by
  simp [ofString, display]

@[simp] theorem text?_ofString (s : String) : (ofString s).text? = some s := by
  simp [ofString, text?]

/-- The stretches between slashes, empty ones included. -/
def segments : List UInt8 → List Name
  | [] => [[]]
  | b :: bs =>
    if b = slash then [] :: segments bs
    else match segments bs with
      | [] => [[b]]
      | n :: ns => (b :: n) :: ns

/-- The stretches between slashes that are not empty. -/
def steps (p : Path) : List Name :=
  (segments p.bytes).filter (· ≠ [])

/-- A path from the root directory. -/
def isAbsolute (p : Path) : Bool :=
  p.bytes.head? = some slash

/-- A path that ends with a slash. -/
def endsWithSlash (p : Path) : Bool :=
  p.bytes.getLast? = some slash

/-- The component of a stretch other than `.`. -/
def componentOf (n : Name) : Component :=
  if n = [dot, dot] then .up else .name n

/-- The steps of a path: repeated and trailing slashes and inner `.` do not count, a leading `.`
does. -/
def components (p : Path) : List Component :=
  let named := (p.steps.filter (· ≠ [dot])).map componentOf
  if p.isAbsolute then .root :: named
  else if p.steps.head? = some [dot] then .here :: named
  else named

/-- Two spellings of the same steps. -/
def same (p q : Path) : Bool :=
  p.components = q.components

/-- The path `q` taken below `p`; an absolute `q` replaces `p`, and an empty one adds a slash. -/
def join (p q : Path) : Path :=
  if q.isAbsolute then q
  else if p.bytes = [] || p.endsWithSlash then ⟨p.bytes ++ q.bytes⟩
  else ⟨p.bytes ++ slash :: q.bytes⟩

/-- The path of the object `n` in the directory at `p`. -/
def child (p : Path) (n : Name) : Path :=
  p.join ⟨n⟩

/-- The last step of a path, if it is a name. -/
def fileName? (p : Path) : Option Name :=
  match p.components.getLast? with
  | some (.name n) => some n
  | _ => none

/-- What a path is called in a listing: its last step if that is a name, else the whole path. -/
def label (p : Path) : String :=
  match p.fileName? with
  | some n => Text.Utf8.lossy n
  | none => p.display

/-- A spelling of steps. -/
def ofComponents : List Component → Path
  | [] => ⟨[]⟩
  | .root :: cs => ⟨slash :: (ofComponents cs).bytes⟩
  | [.here] => ⟨[dot]⟩
  | [.up] => ⟨[dot, dot]⟩
  | [.name n] => ⟨n⟩
  | .here :: cs => ⟨dot :: slash :: (ofComponents cs).bytes⟩
  | .up :: cs => ⟨dot :: dot :: slash :: (ofComponents cs).bytes⟩
  | .name n :: cs => ⟨n ++ slash :: (ofComponents cs).bytes⟩

/-- The path without its last step; none for the empty path and the root directory. -/
def parent? (p : Path) : Option Path :=
  match p.components.getLast? with
  | none | some .root => none
  | some _ => some (ofComponents p.components.dropLast)

end Path

end Casefile
