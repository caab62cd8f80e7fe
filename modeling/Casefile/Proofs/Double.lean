import Casefile.Double
import Mathlib

/-!
# The nearest double

* `roundHalfEven_nearest` — no multiple of the denominator is nearer than the rounded one.
* `nearestUnits_nearest` — nor is any that a double can be.  Where digits are cut off, those with shorter steps
  lie below the power of two with which the number begins, and that is one of the multiples compared.

Principal result: `nearest_nearest` — no double is nearer to a fraction than the nearest, with its sign.
-/

set_option autoImplicit false

namespace Casefile.Double

variable {n d : Nat}

/-- Rounding takes the nearest of all multiples. -/
theorem roundHalfEven_nearest (hd : 0 < d) (k : Nat) :
    ((roundHalfEven n d * d : Nat) - n : Int).natAbs ≤ ((k * d : Nat) - n : Int).natAbs := by
  have hn : n / d * d + n % d = n := by
    rw [Nat.mul_comm]
    exact Nat.div_add_mod n d
  have hrest : n % d < d := Nat.mod_lt n hd
  have hnext : (n / d + 1) * d = n / d * d + d := Nat.succ_mul _ _
  -- the multiple compared lies on one side of the number or the other
  have hside : k * d ≤ n / d * d ∨ (n / d + 1) * d ≤ k * d := by
    rcases Nat.lt_or_ge (n / d) k with hlt | hle
    · exact .inr (Nat.mul_le_mul_right d hlt)
    · exact .inl (Nat.mul_le_mul_right d hle)
  unfold roundHalfEven
  dsimp only
  split <;> omega

/-- The number begins with its highest power of two, which has no more than 53 digits before those beyond. -/
theorem pow_excess_le (h : 0 < excess n) : 2 ^ 52 * 2 ^ excess n ≤ n := by
  have hexcess : 52 + excess n = n.log2 := by
    unfold excess at h ⊢
    omega
  have hne : n ≠ 0 := by
    rintro rfl
    simp [excess] at h
  rw [← Nat.pow_add, hexcess]
  exact Nat.log2_self_le hne

/-- **No multiple that a double can be is nearer.** -/
theorem nearestUnits_nearest (hd : 0 < d) {units : Nat} (h : Short units) :
    ((nearestUnits n d * d : Nat) - (n * perOne : Nat) : Int).natAbs ≤
      ((units * d : Nat) - (n * perOne : Nat) : Int).natAbs := by
  obtain ⟨digits, shift, hdigits, rfl⟩ := h
  rw [Nat.one_shiftLeft] at hdigits
  unfold nearestUnits
  simp only [Nat.shiftLeft_eq]
  generalize n * perOne = v
  generalize hcut : excess (v / d) = cut
  have hpos : 0 < d * 2 ^ cut := Nat.mul_pos hd (Nat.two_pow_pos cut)
  have hcomm (k : Nat) : k * 2 ^ cut * d = k * (d * 2 ^ cut) := by ring
  rw [hcomm]
  rcases Nat.lt_or_ge shift cut with hlt | hle
  · have hpow : 2 ^ 52 * (d * 2 ^ cut) ≤ v := by
      have hle : 2 ^ 52 * 2 ^ cut ≤ v / d := by
        rw [← hcut]
        exact pow_excess_le (by omega)
      rw [← hcomm]
      exact (Nat.le_div_iff_mul_le hd).1 hle
    have hshort : digits * 2 ^ shift * d ≤ 2 ^ 52 * (d * 2 ^ cut) := by
      have hstep : 2 ^ shift * 2 ≤ 2 ^ cut := by
        rw [← Nat.pow_succ]
        exact Nat.pow_le_pow_right (by decide) hlt
      calc digits * 2 ^ shift * d ≤ 2 ^ 53 * 2 ^ shift * d := by gcongr
        _ = 2 ^ 52 * (d * (2 ^ shift * 2)) := by ring
        _ ≤ 2 ^ 52 * (d * 2 ^ cut) := by gcongr
    have hnear := roundHalfEven_nearest (n := v) hpos (2 ^ 52)
    omega
  · have hmultiple : digits * 2 ^ shift * d = digits * 2 ^ (shift - cut) * (d * 2 ^ cut) := by
      rw [← Nat.sub_add_cancel hle, Nat.pow_add, Nat.add_sub_cancel]
      ring
    rw [hmultiple]
    exact roundHalfEven_nearest hpos _

/-- Nor is any within the limit, where the infinities stand. -/
theorem min_nearestUnits_nearest (hd : 0 < d) {units : Nat} (h : Short units) (hle : units ≤ limit) :
    ((min (nearestUnits n d) limit * d : Nat) - (n * perOne : Nat) : Int).natAbs ≤
      ((units * d : Nat) - (n * perOne : Nat) : Int).natAbs := by
  rcases Nat.le_total (nearestUnits n d) limit with hwithin | hbeyond
  · rw [Nat.min_eq_left hwithin]
    exact nearestUnits_nearest hd h
  · rw [Nat.min_eq_right hbeyond]
    have hlimit := nearestUnits_nearest (n := n) hd short_limit
    have hunits : units * d ≤ limit * d := Nat.mul_le_mul_right d hle
    have hmore : limit * d ≤ nearestUnits n d * d := Nat.mul_le_mul_right d hbeyond
    have hnear := nearestUnits_nearest (n := n) hd h
    omega

theorem short_zero : Short 0 :=
  ⟨0, 0, Nat.zero_le _, Nat.shiftLeft_zero.symm⟩

theorem signed_mul (negative : Bool) (units : Nat) :
    signed negative units * (d : Int) = signed negative (units * d) := by
  cases negative <;> simp [signed]

/-- **No double is nearer to a fraction than the nearest.** -/
theorem nearest_nearest (negative : Bool) (hd : 0 < d) (x : Double) :
    ((nearest negative n d).units * d - signed negative (n * perOne)).natAbs ≤
      (x.units * d - signed negative (n * perOne)).natAbs := by
  have hx := min_nearestUnits_nearest (n := n) hd x.short x.bounded
  -- 0 is nearer than a double of the other sign
  have hzero := min_nearestUnits_nearest (n := n) hd short_zero (Nat.zero_le _)
  have hmagnitude : (x.units * d).natAbs = x.units.natAbs * d := by
    rw [Int.natAbs_mul, Int.natAbs_natCast]
  have hunits : (nearest negative n d).units * d = signed negative (min (nearestUnits n d) limit * d) :=
    signed_mul negative _
  rw [hunits]
  rw [Nat.zero_mul] at hzero
  generalize min (nearestUnits n d) limit * d = nearest at hx hzero
  generalize n * perOne = exact at hx hzero
  rw [← hmagnitude] at hx
  cases negative <;> simp only [signed, if_true, if_false, Bool.false_eq_true] <;> omega

end Casefile.Double
