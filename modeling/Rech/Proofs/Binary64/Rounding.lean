import Rech.Binary64.Decimal

/-!
# Rounding of quotients

What a quotient of units is rounded to depends on the quotient only, and not on
how it is written as a fraction. A magnitude that a double has is rounded to
itself.
-/

namespace Rech.Binary64

theorem halfEven_mul (num den : Nat) (hk : 0 < k) :
    halfEven (k * num) (k * den) = halfEven num den := by
  have hlt (a b : Nat) : 2 * (k * a) < k * b ↔ 2 * a < b := by
    rw [Nat.mul_left_comm, Nat.mul_lt_mul_left hk]
  have hgt (a b : Nat) : k * a < 2 * (k * b) ↔ a < 2 * b := by
    rw [Nat.mul_left_comm, Nat.mul_lt_mul_left hk]
  simp only [halfEven, Nat.mul_mod_mul_left, Nat.mul_div_mul_left _ _ hk, hlt, hgt]

theorem halfEven_congr (hb : 0 < b) (hd : 0 < d) (h : a * d = c * b) :
    halfEven a b = halfEven c d := by
  rw [← halfEven_mul a b hd, ← halfEven_mul c d hb, Nat.mul_comm d a, h, Nat.mul_comm c b,
    Nat.mul_comm d b]

theorem div_congr (hb : 0 < b) (hd : 0 < d) (h : a * d = c * b) : a / b = c / d := by
  rw [← Nat.mul_div_mul_right a b hd, h, Nat.mul_comm b d, Nat.mul_div_mul_right c d hb]

theorem nearestUnits_congr (hb : 0 < b) (hd : 0 < d) (h : a * d = c * b) :
    nearestUnits a b = nearestUnits c d := by
  have hstep : quotientStep a b = quotientStep c d := by
    rw [quotientStep, quotientStep, div_congr hb hd h]
  have hpos : 0 < quotientStep c d := step_pos _
  have hround : halfEven a (b * quotientStep c d) = halfEven c (d * quotientStep c d) := by
    refine halfEven_congr (Nat.mul_pos hb hpos) (Nat.mul_pos hd hpos) ?_
    rw [← Nat.mul_assoc, h, Nat.mul_assoc]
  rw [nearestUnits, nearestUnits, hstep, hround]

theorem nearest_congr (negative : Bool) (hb : 0 < b) (hd : 0 < d) (h : a * d = c * b) :
    nearest negative a b = nearest negative c d := by
  simp only [nearest, nearestUnits_congr hb hd h]

theorem halfEven_of_dvd (hd : 0 < d) (h : d ∣ n) : halfEven n d = n / d := by
  rw [halfEven, Nat.mod_eq_zero_of_dvd h, Nat.mul_zero, if_pos hd]

theorem nearestUnits_of_dvd (h : step units ∣ units) : nearestUnits units 1 = units := by
  rw [nearestUnits, quotientStep, Nat.div_one, Nat.one_mul, halfEven_of_dvd (step_pos units) h,
    Nat.div_mul_cancel h]

theorem nearest_eq_finite (negative : Bool) (hunits : nearestUnits num den = units)
    (h : Representable units) : nearest negative num den = .finite negative units h := by
  subst hunits
  exact dif_pos h.1

theorem nearest_of_representable (negative : Bool) (h : Representable units) :
    nearest negative units 1 = .finite negative units h :=
  nearest_eq_finite negative (nearestUnits_of_dvd h.2) h

-- ---------------------------------------------------------------------------
-- Units and quanta
-- ---------------------------------------------------------------------------

theorem quantaPerUnit_pos : 0 < quantaPerUnit := by
  unfold quantaPerUnit
  generalize 1074 = exponent
  exact Nat.pow_pos (by decide)

theorem pow_ten_pos (k : Nat) : 0 < Nat.pow 10 k := Nat.pow_pos (by decide)

theorem pow_ten_add (m n : Nat) : Nat.pow 10 (m + n) = Nat.pow 10 m * Nat.pow 10 n :=
  Nat.pow_add ..

theorem one_mul_quantaPerUnit : one * quantaPerUnit = Nat.pow 10 1074 := by
  unfold one quantaPerUnit
  generalize 1074 = exponent
  exact (Nat.mul_pow 2 5 exponent).symm

theorem ofDecimal_eq (h : coefficient * (one * quantaPerUnit) = quanta * Nat.pow 10 places) :
    ofDecimal coefficient places = nearest false quanta quantaPerUnit := by
  refine nearest_congr false (pow_ten_pos places) quantaPerUnit_pos ?_
  rw [Nat.mul_assoc, h]

theorem ofDecimal_zero (places : Nat) : ofDecimal 0 places = zero false := by
  have hcongr : 0 * one * 1 = 0 * Nat.pow 10 places := by
    rw [Nat.zero_mul, Nat.zero_mul, Nat.zero_mul]
  exact (nearest_congr false (pow_ten_pos places) Nat.one_pos hcongr).trans
    (nearest_of_representable false representable_zero)

end Rech.Binary64
