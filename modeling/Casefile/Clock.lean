/-!
# The time at which data is recorded

* `Clock` — the time and the time zone of a moment.
* `Clock.zoneText` — the text of a time zone, by its distance from universal time.
-/

set_option autoImplicit false

namespace Casefile

/-- The time zone and time, in seconds since 1970, at which a source is recorded. -/
structure Clock where
  timeZone : String
  now : Int
  deriving DecidableEq, Repr

namespace Clock

/-- A number below 100 in two digits. -/
def twoDigits (n : Nat) : String :=
  String.ofList [Nat.digitChar (n / 10), Nat.digitChar (n % 10)]

/-- The text of the time zone that is so many minutes ahead of universal time. -/
def zoneText (minutes : Int) : String :=
  let m := minutes.natAbs
  (if minutes < 0 then "-" else "+") ++ twoDigits (m / 60) ++ ":" ++ twoDigits (m % 60)

/-- A moment in universal time. -/
def universal (now : Int) : Clock := ⟨zoneText 0, now⟩

end Clock

end Casefile
