/-!
# Double precision numbers

A finite double is a sign and a whole number of units of 2^-1074, so sums,
products, quotients and comparisons are integer arithmetic followed by one
rounding. `nearest` is that rounding: to the nearest double, a tie to the even
significand, and to an infinity from half a step above the largest double on.
`step_nearestUnits_dvd` is why the result is a double.
-/

namespace Rech

namespace Binary64

def one : Nat := Nat.pow 2 1074

/-- Every finite double lies below 2^1024, which is this many units. -/
def limit : Nat := Nat.pow 2 2098

/-- The distance in units between neighbouring doubles at a magnitude: 53 bits
are significant. -/
def step (units : Nat) : Nat := Nat.pow 2 (units.log2 - 52)

def Representable (units : Nat) : Prop :=
  units < limit ∧ step units ∣ units

instance (units : Nat) : Decidable (Representable units) :=
  inferInstanceAs (Decidable (_ ∧ _))

end Binary64

inductive Binary64 where
  | nan
  | infinite (negative : Bool)
  | finite (negative : Bool) (units : Nat) (representable : Binary64.Representable units)
deriving DecidableEq

namespace Binary64

theorem log2_mono {m n : Nat} (h : m ≤ n) : m.log2 ≤ n.log2 := by
  by_cases hm : m = 0
  · simp [hm]
  · have hn : n ≠ 0 := by omega
    exact (Nat.le_log2 hn).2 (Nat.le_trans (Nat.log2_self_le hm) h)

theorem step_dvd_step {m n : Nat} (h : m ≤ n) : step m ∣ step n :=
  Nat.pow_dvd_pow 2 (Nat.sub_le_sub_right (log2_mono h) 52)

private theorem two_pow_pos (k : Nat) : 0 < Nat.pow 2 k := Nat.pow_pos (by decide)

theorem one_pos : 0 < one := by
  unfold one
  generalize 1074 = exponent
  exact two_pow_pos exponent

theorem limit_pos : 0 < limit := by
  unfold limit
  generalize 2098 = exponent
  exact two_pow_pos exponent

theorem step_pos (units : Nat) : 0 < step units := two_pow_pos _

theorem representable_zero : Representable 0 := ⟨limit_pos, Nat.dvd_zero _⟩

def zero (negative : Bool) : Binary64 :=
  .finite negative 0 representable_zero

def halfEven (num den : Nat) : Nat :=
  if 2 * (num % den) < den then num / den
  else if den < 2 * (num % den) then num / den + 1
  else num / den + num / den % 2

theorem halfEven_le (num den : Nat) : halfEven num den ≤ num / den + 1 := by
  unfold halfEven
  split
  · omega
  · split <;> omega

/-- A whole number of steps below or at 53 significant bits is a double's
magnitude, unless it is too large. -/
theorem step_mul_dvd {n k : Nat} (h : n ≤ Nat.pow 2 53) :
    step (n * Nat.pow 2 k) ∣ n * Nat.pow 2 k := by
  simp only [Nat.pow_eq] at h ⊢
  rcases Nat.lt_or_eq_of_le h with hlt | heq
  · have hlog : (n * 2 ^ k).log2 - 52 ≤ k := by
      by_cases hn : n * 2 ^ k = 0
      · simp [hn]
      · have : (n * 2 ^ k).log2 < 53 + k := by
          rw [Nat.log2_lt hn, Nat.pow_add]
          exact Nat.mul_lt_mul_of_pos_right hlt (Nat.two_pow_pos k)
        omega
    exact Nat.dvd_trans (Nat.pow_dvd_pow 2 hlog) (Nat.dvd_mul_left _ _)
  · subst heq
    rw [step, ← Nat.pow_add, Nat.log2_two_pow, Nat.pow_eq]
    exact Nat.pow_dvd_pow 2 (by omega)

/-- The distance between doubles at the size of a quotient. -/
def quotientStep (num den : Nat) : Nat := step (num / den)

theorem div_quotientStep_lt (num den : Nat) :
    num / (den * quotientStep num den) < Nat.pow 2 53 := by
  rw [← Nat.div_div_eq_div_mul, quotientStep, step, Nat.pow_eq, Nat.pow_eq]
  generalize num / den = q
  rw [Nat.div_lt_iff_lt_mul (Nat.two_pow_pos _), ← Nat.pow_add]
  by_cases hq : q = 0
  · subst hq
    exact Nat.two_pow_pos _
  · exact Nat.lt_of_lt_of_le Nat.lt_log2_self (Nat.pow_le_pow_right (by decide) (by omega))

/-- The magnitude nearest to a quotient of units, before it is known to be
below the limit. -/
def nearestUnits (num den : Nat) : Nat :=
  halfEven num (den * quotientStep num den) * quotientStep num den

theorem step_nearestUnits_dvd (num den : Nat) :
    step (nearestUnits num den) ∣ nearestUnits num den := by
  have h := halfEven_le num (den * quotientStep num den)
  have hlt := div_quotientStep_lt num den
  exact step_mul_dvd (by omega)

def nearest (negative : Bool) (num den : Nat) : Binary64 :=
  if h : nearestUnits num den < limit then
    .finite negative (nearestUnits num den) ⟨h, step_nearestUnits_dvd num den⟩
  else .infinite negative

/-- The double of an interchange pattern: a sign bit, eleven exponent bits
and 52 fraction bits. -/
def ofBits (bits : UInt64) : Binary64 :=
  let negative := bits.toNat / Nat.pow 2 63 = 1
  let exponent := bits.toNat / Nat.pow 2 52 % Nat.pow 2 11
  let fraction := bits.toNat % Nat.pow 2 52
  if exponent = 2047 then
    if fraction = 0 then .infinite negative else .nan
  else if exponent = 0 then nearest negative fraction 1
  else nearest negative ((Nat.pow 2 52 + fraction) * Nat.pow 2 (exponent - 1)) 1

end Binary64

end Rech
