/-!
# Supplies of device ids

* `DeviceIds` — the id that each draw gives.
* `DeviceIds.numbered`, `DeviceIds.listed` — supplies that are known in advance.
* `Uuid.text` — an id of version 4 out of sixteen bytes, and `DeviceIds.random`, a supply of such ids.
-/

set_option autoImplicit false

namespace Casefile

/-- The id that each draw gives, counted from 0. A supply need not give valid ids. -/
abbrev DeviceIds := Nat → String

namespace DeviceIds

/-- `device-1`, `device-2` and so on. -/
def numbered : DeviceIds :=
  fun n => "device-" ++ toString (n + 1)

/-- The ids of a list in order, and nothing but empty ones afterwards. -/
def listed (ids : List String) : DeviceIds :=
  fun n => ids[n]?.getD ""

end DeviceIds

namespace Uuid

/-- The two digits of a byte. -/
def byteDigits (b : UInt8) : List Char :=
  [Nat.digitChar (b.toNat / 16), Nat.digitChar (b.toNat % 16)]

/-- The byte with the version, which is 4, in its upper half. -/
def markVersion (b : UInt8) : UInt8 := (b &&& 0x0F) ||| 0x40

/-- The byte with the variant in its two upper bits. -/
def markVariant (b : UInt8) : UInt8 := (b &&& 0x3F) ||| 0x80

/-- The bytes with version and variant in their places. -/
def marked (bytes : List UInt8) : List UInt8 :=
  (bytes.modify 6 markVersion).modify 8 markVariant

/-- The id that sixteen bytes make: five groups of digits in lower case. -/
def text (bytes : List UInt8) : String :=
  let b := marked bytes
  let group (start size : Nat) : String :=
    String.ofList (((b.drop start).take size).flatMap byteDigits)
  "-".intercalate [group 0 4, group 4 2, group 6 2, group 8 2, group 10 6]

end Uuid

/-- Random ids that differ from one another for 65536 draws, out of sixteen random bytes. -/
def DeviceIds.random (seed : List UInt8) : DeviceIds :=
  fun n => Uuid.text <|
    (seed.modify 14 (· + UInt8.ofNat (n / 256 % 256))).modify 15 (· + UInt8.ofNat (n % 256))

end Casefile
