import Casefile.Text.Blank

/-!
# Numbers of the storage class REAL

* `Double` — a double other than NaN.
* `Double.nearest` — the double nearest to a fraction.
* `Double.whole?` — the whole number that a double is.
* `Double.text` — a double written out with up to 15 digits.
* `Numeral`, `Numeral.read?` — a number as a text spells it.
* `Numeral.nearest` — the double nearest to it.

A double is the whole number of times that the smallest positive one fits into it, so that doubles and whole
numbers are compared exactly.
-/

set_option autoImplicit false

namespace Casefile

/-- How often the smallest positive double fits into 1. -/
def Double.perOne : Nat := 1 <<< 1074

theorem Double.perOne_pos : 0 < Double.perOne := by
  unfold Double.perOne
  rw [Nat.one_shiftLeft]
  apply Nat.two_pow_pos

/-- How often it fits into 2^1024, the first number that no double reaches. -/
def Double.limit : Nat := 1 <<< 2098

/-- A number of times that the smallest positive double fits into another one: 53 binary digits, shifted. -/
def Double.Short (units : Nat) : Prop :=
  ∃ digits shift : Nat, digits ≤ 1 <<< 53 ∧ units = digits <<< shift

/-- A double other than NaN, as a multiple of the smallest positive one. The infinities stand at the limit,
and the two zeros are one. -/
structure Double where
  units : Int
  short : Double.Short units.natAbs
  bounded : units.natAbs ≤ Double.limit
  deriving DecidableEq, Repr

namespace Double

/-! ## Rounding -/

/-- The whole number nearest to `n / d`; of two that are as near, the even one. -/
def roundHalfEven (n d : Nat) : Nat :=
  let rest := 2 * (n % d)
  if rest < d ∨ rest = d ∧ n / d % 2 = 0 then n / d else n / d + 1

/-- The number of binary digits that whole numbers of this size have beyond 53. -/
def excess (n : Nat) : Nat := n.log2 - 52

/-- The multiple nearest to `n / d`, if there were no limit. -/
def nearestUnits (n d : Nat) : Nat :=
  let shift := excess (n * perOne / d)
  roundHalfEven (n * perOne) (d <<< shift) <<< shift

theorem roundHalfEven_le (n d : Nat) : roundHalfEven n d ≤ n / d + 1 := by
  unfold roundHalfEven
  dsimp only
  split <;> omega

/-- Without the digits beyond, a whole number has 53 of them at most. -/
theorem shiftRight_excess_lt (n : Nat) : n >>> excess n < 1 <<< 53 := by
  have hlog : n < 2 ^ (n.log2 + 1) := Nat.lt_log2_self
  rw [Nat.shiftRight_eq_div_pow, Nat.one_shiftLeft]
  refine Nat.div_lt_of_lt_mul (Nat.lt_of_lt_of_le hlog ?_)
  rw [← Nat.pow_add]
  refine Nat.pow_le_pow_right (by decide) ?_
  unfold excess
  omega

theorem short_nearestUnits (n d : Nat) : Short (nearestUnits n d) := by
  refine ⟨_, _, ?_, rfl⟩
  refine Nat.le_trans (roundHalfEven_le _ _) ?_
  rw [Nat.shiftLeft_eq, ← Nat.div_div_eq_div_mul, ← Nat.shiftRight_eq_div_pow]
  exact shiftRight_excess_lt _

theorem short_limit : Short limit :=
  ⟨1, 2098, by decide, rfl⟩

theorem short_min {a b : Nat} (ha : Short a) (hb : Short b) : Short (min a b) := by
  rcases Nat.le_total a b with hle | hle
  · rwa [Nat.min_eq_left hle]
  · rwa [Nat.min_eq_right hle]

/-- A multiple with a sign. -/
def signed (negative : Bool) (units : Nat) : Int :=
  if negative then -units else units

@[simp] theorem natAbs_signed (negative : Bool) (units : Nat) : (signed negative units).natAbs = units := by
  cases negative <;> simp [signed]

/-- The double of a short multiple within the limit. -/
def ofUnits (negative : Bool) (units : Nat) (hshort : Short units) (hbounded : units ≤ limit) : Double where
  units := signed negative units
  short := (natAbs_signed negative units).symm ▸ hshort
  bounded := (natAbs_signed negative units).symm ▸ hbounded

/-- The double nearest to `n / d`, with a sign. -/
def nearest (negative : Bool) (n d : Nat) : Double :=
  ofUnits negative (min (nearestUnits n d) limit) (short_min (short_nearestUnits n d) short_limit)
    (Nat.min_le_right _ _)

/-- The whole number that a double is, if it has less than 64 binary digits. -/
def whole? (x : Double) : Option Int :=
  if x.units % perOne = 0 ∧ x.units.natAbs < perOne <<< 63 then some (x.units / perOne) else none

/-! ## Writing -/

/-- A power of ten. -/
def tens (power : Nat) : Nat := Nat.pow 10 power

/-- The first 15 decimal digits of a positive multiple, as one number, and the power of ten that the first
of them stands for. -/
def leading (units : Nat) : Nat × Int :=
  let power : Int := (Nat.toDigits 10 (units * tens 324 / perOne)).length - 325
  let n := units * tens (14 - power).toNat
  let d := perOne * tens (power - 14).toNat
  let digits := (2 * n + d) / (2 * d)
  if digits = tens 15 then (tens 14, power + 1) else (digits, power)

/-- Digits with a point between them; no more of those behind it than are needed, but one. -/
def pointed (whole fraction : List Char) : List Char :=
  match Text.dropEndWhile (· = '0') fraction with
  | [] => whole ++ ['.', '0']
  | fraction => whole ++ '.' :: fraction

/-- A power of ten behind the digits, with two digits of its own or more. -/
def powerText (power : Int) : List Char :=
  let digits := Nat.toDigits 10 power.natAbs
  'e' :: (if power < 0 then '-' else '+') :: (if digits.length < 2 then '0' :: digits else digits)

/-- A positive multiple written out. -/
def magnitudeText (units : Nat) : List Char :=
  let (number, power) := leading units
  let digits := Nat.toDigits 10 number
  if power < -4 ∨ 14 < power then pointed (digits.take 1) (digits.drop 1) ++ powerText power
  else if power < 0 then pointed ['0'] (List.replicate (-power - 1).toNat '0' ++ digits)
  else pointed (digits.take (power + 1).toNat) (digits.drop (power + 1).toNat)

/-- A double written out. -/
def text (x : Double) : String :=
  let sign := if x.units < 0 then "-" else ""
  if x.units = 0 then "0.0"
  else if x.units.natAbs = limit then sign ++ "Inf"
  else sign ++ String.ofList (magnitudeText x.units.natAbs)

end Double

/-! ## Reading -/

/-- A number as a text spells it: digits times a power of ten, with a sign. -/
structure Numeral where
  negative : Bool
  digits : Nat
  power : Int
  /-- Whether it has neither a point nor a power of ten. -/
  plain : Bool
  deriving DecidableEq, Repr

namespace Numeral

/-- The value of decimal digits. -/
def valueOf (cs : List Char) : Nat :=
  cs.foldl (fun n c => n * 10 + (c.toNat - '0'.toNat)) 0

/-- The value of the digits of a power of ten; beyond some size it does not matter. -/
def powerOf (cs : List Char) : Nat :=
  cs.foldl (fun n c => if n < 10000 then n * 10 + (c.toNat - '0'.toNat) else 10000) 0

/-- Whether there is a minus sign, and the characters behind the sign if there is one. -/
def splitSign : List Char → Bool × List Char
  | '-' :: cs => (true, cs)
  | '+' :: cs => (false, cs)
  | cs => (false, cs)

/-- The digits behind a point, if there is one, and the characters behind them. -/
def splitFraction : List Char → Option (List Char) × List Char
  | '.' :: cs => (some (cs.takeWhile Char.isDigit), cs.dropWhile Char.isDigit)
  | cs => (none, cs)

/-- The power of ten at the end of a number, if there is one; nothing if there is something else. -/
def readPower? : List Char → Option (Option Int)
  | [] => some none
  | c :: cs =>
    let (negative, digits) := splitSign cs
    if (c = 'e' ∨ c = 'E') ∧ digits ≠ [] ∧ digits.all Char.isDigit then
      some (some (Double.signed negative (powerOf digits)))
    else none

/-- The characters that may stand around a number. -/
def isSpace (c : Char) : Bool :=
  c = ' ' || (0x09 ≤ c.toNat && c.toNat ≤ 0x0D)

/-- The number that a text spells. -/
def read? (s : String) : Option Numeral :=
  let (negative, cs) := splitSign (Text.dropEndWhile isSpace (s.toList.dropWhile isSpace))
  let whole := cs.takeWhile Char.isDigit
  let (fraction?, cs) := splitFraction (cs.dropWhile Char.isDigit)
  let digits := whole ++ fraction?.getD []
  match readPower? cs with
  | none => none
  | some power? =>
    if digits = [] then none
    else some ⟨negative, valueOf digits, power?.getD 0 - ((fraction?.getD []).length : Int),
      fraction?.isNone && power?.isNone⟩

/-- The number that digits without point and power spell. -/
def whole (n : Numeral) : Int :=
  Double.signed n.negative n.digits

/-- The double nearest to a number. -/
def nearest (n : Numeral) : Double :=
  .nearest n.negative (n.digits * Double.tens n.power.toNat) (Double.tens (-n.power).toNat)

end Numeral

end Casefile
