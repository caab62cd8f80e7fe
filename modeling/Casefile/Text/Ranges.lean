/-!
# Sets of code points given by ranges

* `inRanges` — membership in one of finitely many closed ranges.
-/

set_option autoImplicit false

namespace Casefile.Text

/-- Whether a code point lies in one of the ranges, both ends included. -/
def inRanges (ranges : List (Nat × Nat)) (n : Nat) : Bool :=
  ranges.any fun r => r.1 ≤ n && n ≤ r.2

end Casefile.Text
