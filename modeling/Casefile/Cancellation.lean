/-!
# Asking a run to stop

* `Cancellation` — a flag that is raised once and for all, as long as there is someone to raise it,
  and seen by every token.
-/

set_option autoImplicit false

namespace Casefile

/-- A flag, whether there is still someone to raise it, and the number of tokens that see it. -/
structure Cancellation where
  raised : Bool
  held : Bool
  tokens : Nat
  deriving DecidableEq, Repr

namespace Cancellation

/-- A flag that is down, with one token. -/
def start : Cancellation := ⟨false, true, 1⟩

/-- Raises the flag. -/
def cancel (c : Cancellation) : Cancellation :=
  { c with raised := c.raised || c.held }

/-- Makes one more token. -/
def clone (c : Cancellation) : Cancellation :=
  { c with tokens := c.tokens + 1 }

/-- Leaves nobody to raise the flag. -/
def release (c : Cancellation) : Cancellation :=
  { c with held := false }

/-- What every token sees. -/
def seen (c : Cancellation) : List Bool :=
  List.replicate c.tokens c.raised

end Cancellation

end Casefile
