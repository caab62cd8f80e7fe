/-!
# Blank characters and trimming

* `isBlank` — the characters with the Unicode property White_Space.
* `trim` — a text without the blank characters at its two ends.
-/

set_option autoImplicit false

namespace Casefile.Text

/-- The characters with the Unicode property White_Space. -/
def isBlank (c : Char) : Bool :=
  let n := c.toNat
  (0x09 ≤ n && n ≤ 0x0D) || n == 0x20 || n == 0x85 || n == 0xA0 || n == 0x1680
    || (0x2000 ≤ n && n ≤ 0x200A) || n == 0x2028 || n == 0x2029 || n == 0x202F || n == 0x205F
    || n == 0x3000

/-- The list without the characters at its end that satisfy `p`. -/
def dropEndWhile (p : Char → Bool) (cs : List Char) : List Char :=
  (cs.reverse.dropWhile p).reverse

/-- The characters between the first and the last that are not blank. -/
def trimChars (cs : List Char) : List Char :=
  dropEndWhile isBlank (cs.dropWhile isBlank)

/-- The text without the blank characters at its two ends. -/
def trim (s : String) : String :=
  String.ofList (trimChars s.toList)

end Casefile.Text
