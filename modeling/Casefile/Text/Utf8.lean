/-!
# Reading bytes as UTF-8

* `Utf8.read` — the text of well-formed bytes, or the first fault and where it is.
* `Utf8.lossy` — the text of any bytes, with U+FFFD for each faulty stretch.

A faulty stretch is as long as possible: it ends before the first byte that cannot continue the
sequence it began.
-/

set_option autoImplicit false

namespace Casefile.Text

/-- What is wrong with bytes that are not UTF-8, with the index at which the faulty stretch starts. -/
inductive Utf8Fault where
  | invalid (length index : Nat)
  | incomplete (index : Nat)
  deriving DecidableEq, Repr

/-- The wording of a fault. -/
def Utf8Fault.message : Utf8Fault → String
  | .invalid n i =>
    "invalid utf-8 sequence of " ++ toString n ++ " bytes from index " ++ toString i
  | .incomplete i => "incomplete utf-8 byte sequence from index " ++ toString i

namespace Utf8

/-- A sequence that has begun: the value of its bits so far, how many bytes it has and how many are
to come, and the bounds on the next byte. -/
structure Pending where
  value : Nat
  taken : Nat
  missing : Nat
  least : Nat
  greatest : Nat
  deriving DecidableEq, Repr

/-- What a byte does at the start of a sequence: it is a character, begins a longer sequence, or
can do neither. -/
inductive Lead where
  | whole (c : Char)
  | begun (p : Pending)
  | stray
  deriving DecidableEq, Repr

/-- The role of a byte at the start of a sequence. Overlong forms, surrogates and values above
U+10FFFF are excluded by the bounds on the second byte. -/
def lead (b : UInt8) : Lead :=
  let n := b.toNat
  if n < 0x80 then .whole (Char.ofNat n)
  else if n < 0xC2 then .stray
  else if n < 0xE0 then .begun ⟨n - 0xC0, 1, 1, 0x80, 0xBF⟩
  else if n < 0xF0 then
    .begun ⟨n - 0xE0, 1, 2, if n = 0xE0 then 0xA0 else 0x80, if n = 0xED then 0x9F else 0xBF⟩
  else if n < 0xF5 then
    .begun ⟨n - 0xF0, 1, 3, if n = 0xF0 then 0x90 else 0x80, if n = 0xF4 then 0x8F else 0xBF⟩
  else .stray

/-- The sequence after one more byte. -/
def Pending.push (p : Pending) (b : UInt8) : Pending :=
  ⟨p.value * 64 + (b.toNat - 0x80), p.taken + 1, p.missing - 1, 0x80, 0xBF⟩

/-- Whether a byte can continue the sequence. -/
def Pending.accepts (p : Pending) (b : UInt8) : Bool :=
  p.least ≤ b.toNat && b.toNat ≤ p.greatest

/-- The characters of bytes, with U+FFFD for each faulty stretch; `p?` is a sequence that the bytes
before have begun. -/
def replaceFaults : Option Pending → List UInt8 → List Char
  | none, [] => []
  | some _, [] => ['\uFFFD']
  | none, b :: bs =>
    match lead b with
    | .whole c => c :: replaceFaults none bs
    | .begun p => replaceFaults (some p) bs
    | .stray => '\uFFFD' :: replaceFaults none bs
  | some p, b :: bs =>
    if p.accepts b then
      if p.missing = 1 then Char.ofNat (p.push b).value :: replaceFaults none bs
      else replaceFaults (some (p.push b)) bs
    else '\uFFFD' ::
      match lead b with
      | .whole c => c :: replaceFaults none bs
      | .begun q => replaceFaults (some q) bs
      | .stray => '\uFFFD' :: replaceFaults none bs

/-- The first fault of bytes, if there is one; `start` is the index at which the sequence in hand
began, or of the next byte if none has begun. -/
def fault? (start : Nat) : Option Pending → List UInt8 → Option Utf8Fault
  | none, [] => none
  | some _, [] => some (.incomplete start)
  | none, b :: bs =>
    match lead b with
    | .whole _ => fault? (start + 1) none bs
    | .begun p => fault? start (some p) bs
    | .stray => some (.invalid 1 start)
  | some p, b :: bs =>
    if p.accepts b then
      if p.missing = 1 then fault? (start + p.taken + 1) none bs
      else fault? start (some (p.push b)) bs
    else some (.invalid p.taken start)

/-- The bytes of a text. -/
def bytes (s : String) : List UInt8 :=
  s.toUTF8.data.toList

/-- The text of well-formed bytes. -/
def text? (bs : List UInt8) : Option String :=
  String.fromUTF8? ⟨bs.toArray⟩

/-- The text of any bytes, with U+FFFD for each faulty stretch. -/
def lossy (bs : List UInt8) : String :=
  match text? bs with
  | some s => s
  | none => String.ofList (replaceFaults none bs)

/-- The text of well-formed bytes, or what is wrong with them. -/
def read (bs : List UInt8) : Except Utf8Fault String :=
  match text? bs with
  | some s => .ok s
  | none => .error ((fault? 0 none bs).getD (.incomplete 0))

@[simp] theorem text?_bytes (s : String) : text? (bytes s) = some s := by
  simp only [text?, bytes, Array.toArray_toList, String.fromUTF8?, String.toUTF8_eq_toByteArray,
    dif_pos s.isValidUTF8]
  rfl

@[simp] theorem lossy_bytes (s : String) : lossy (bytes s) = s := by
  simp [lossy]

@[simp] theorem read_bytes (s : String) : read (bytes s) = .ok s := by
  simp [read]

end Utf8

end Casefile.Text
