import Mathlib.Algebra.Order.Field.Basic
import Mathlib.Algebra.Order.Ring.Rat
import Mathlib.Algebra.Ring.Parity
import Mathlib.Tactic.FieldSimp
import Mathlib.Tactic.Linarith
import Mathlib.Tactic.Ring
import Rech.Proofs.Binary64.Shortest

/-!
# The nearest magnitude

The magnitudes of doubles are a grid that gets coarser from one power of two to the
next. It goes on above the limit, which belongs to it. Next to a quotient its points are
the multiples of one step, and rounding takes the nearer one of the two around the
quotient. So no point of the whole grid is nearer, and if another one is as near, the
significand of the one taken is even. A quotient is rounded to the limit or beyond it
from half a step above the largest double on.
-/

namespace Rech.Binary64

def significand (units : Nat) : Nat := units / step units

/-- No magnitude of the grid is nearer, and one as near has an odd significand. -/
structure IsNearest (q : ℚ) (units : Nat) : Prop where
  onGrid : step units ∣ units
  nearest : ∀ other, step other ∣ other → |q - units| ≤ |q - other|
  even : ∀ other, step other ∣ other → other ≠ units → |q - other| = |q - units| →
    Even (significand units)

-- ---------------------------------------------------------------------------
-- The grid
-- ---------------------------------------------------------------------------

theorem step_mul_pow_dvd {n : Nat} (h : n < 2 ^ 53) (k : Nat) : step (n * 2 ^ k) ∣ 2 ^ k := by
  have hlog : (n * 2 ^ k).log2 - 52 ≤ k := by
    by_cases hn : n * 2 ^ k = 0
    · simp [hn]
    · have : (n * 2 ^ k).log2 < 53 + k := by
        rw [Nat.log2_lt hn, Nat.pow_add]
        exact Nat.mul_lt_mul_of_pos_right h (Nat.two_pow_pos k)
      omega
  exact Nat.pow_dvd_pow 2 hlog

/-- Between two neighbouring multiples of the step at `whole`, around it, is no magnitude. -/
theorem grid_gap {other : Nat} (h : step other ∣ other) (whole : Nat) :
    other ≤ whole / step whole * step whole ∨ (whole / step whole + 1) * step whole ≤ other := by
  by_cases hlog : whole.log2 - 52 ≤ other.log2 - 52
  · obtain ⟨m, rfl⟩ := (Nat.pow_dvd_pow 2 hlog).trans h
    change 2 ^ (whole.log2 - 52) * m ≤ _ ∨ _ ≤ 2 ^ (whole.log2 - 52) * m
    rw [Nat.mul_comm]
    rcases Nat.lt_or_ge (whole / step whole) m with hlt | hge
    · exact .inr (Nat.mul_le_mul_right _ hlt)
    · exact .inl (Nat.mul_le_mul_right _ hge)
  · -- The magnitude has fewer bits than `whole`, and at least 52 bits of `whole` stand before
    -- the step.
    left
    have hne : whole ≠ 0 := by
      rintro rfl
      simp at hlog
    have hwhole : 2 ^ 52 * step whole ≤ whole := by
      refine Nat.le_trans (Nat.le_of_eq ?_) (Nat.log2_self_le hne)
      rw [step, Nat.pow_eq, ← Nat.pow_add]
      congr 1
      omega
    have hcount := (Nat.le_div_iff_mul_le (step_pos whole)).2 hwhole
    have hbelow : other < 2 ^ 52 * step whole := by
      by_cases hother : other = 0
      · rw [hother]
        exact Nat.mul_pos (by decide) (step_pos whole)
      · rw [step, Nat.pow_eq, ← Nat.pow_add, ← Nat.log2_lt hother]
        omega
    exact Nat.le_trans (Nat.le_of_lt hbelow) (Nat.mul_le_mul_right _ hcount)

theorem even_significand {n : Nat} (h : n ≤ 2 ^ 53) (even : Even n) (k : Nat) :
    Even (significand (n * 2 ^ k)) := by
  have hpos := step_pos (n * 2 ^ k)
  suffices hdvd : step (n * 2 ^ k) * 2 ∣ n * 2 ^ k by
    rw [even_iff_two_dvd, significand, Nat.dvd_div_iff_mul_dvd (Dvd.dvd.trans ⟨2, rfl⟩ hdvd)]
    exact hdvd
  rcases Nat.lt_or_eq_of_le h with hlt | rfl
  · rw [Nat.mul_comm n]
    rw [Nat.mul_comm n] at hpos
    exact Nat.mul_dvd_mul (Nat.mul_comm n _ ▸ step_mul_pow_dvd hlt k) even.two_dvd
  · rw [step, ← Nat.pow_add, Nat.log2_two_pow, Nat.pow_eq, ← Nat.pow_succ]
    exact Nat.pow_dvd_pow 2 (by omega)

theorem significand_mul_step (h : step units ∣ units) : significand units * step units = units :=
  Nat.div_mul_cancel h

theorem significand_lt (units : Nat) : significand units < 2 ^ 53 := by
  have h := div_quotientStep_lt units 1
  rwa [quotientStep, Nat.div_one, Nat.one_mul, Nat.pow_eq] at h

theorem significand_mul_pow (n k : Nat) (hlt : n < 2 ^ 53) (h : 2 ^ k ∣ step (n * 2 ^ k)) :
    significand (n * 2 ^ k) = n := by
  rw [significand, Nat.dvd_antisymm (step_mul_pow_dvd hlt k) h,
    Nat.mul_div_cancel _ (Nat.two_pow_pos k)]

theorem exists_between {one other : Nat} (hone : step one ∣ one) (hother : step other ∣ other)
    (hlt : one < other) (heven : Even (significand one)) (heven' : Even (significand other)) :
    ∃ between, step between ∣ between ∧ one < between ∧ between < other := by
  obtain ⟨k, hk⟩ : ∃ k, step one = 2 ^ k := ⟨_, rfl⟩
  have hsplit := significand_mul_step hone
  have hcount := significand_lt one
  have hcoarser : 2 ^ k ∣ step other := hk ▸ step_dvd_step (Nat.le_of_lt hlt)
  obtain ⟨n, hn⟩ := hcoarser.trans hother
  rw [hk] at hsplit
  generalize significand one = m at hsplit hcount heven
  subst hsplit
  rw [Nat.mul_comm] at hn
  subst hn
  have hless := Nat.lt_of_mul_lt_mul_right hlt
  have hpos := Nat.two_pow_pos k
  refine ⟨(m + 1) * 2 ^ k, step_mul_dvd hcount, ?_, ?_⟩
  · exact Nat.mul_lt_mul_of_pos_right (Nat.lt_succ_self m) hpos
  · refine Nat.mul_lt_mul_of_pos_right (Nat.lt_of_le_of_ne hless ?_) hpos
    -- The next magnitude has an odd significand.
    rintro rfl
    rw [Nat.even_iff] at heven
    have hlt53 : m + 1 < 2 ^ 53 := by omega
    rw [significand_mul_pow _ _ hlt53 hcoarser, Nat.even_iff] at heven'
    omega

-- ---------------------------------------------------------------------------
-- Rounding to a whole number
-- ---------------------------------------------------------------------------

theorem two_mul_halfEven (num : Nat) {den : Nat} (h : 0 < den) :
    2 * num ≤ 2 * (den * halfEven num den) + den ∧
    2 * (den * halfEven num den) ≤ 2 * num + den ∧
    (2 * num = 2 * (den * halfEven num den) + den ∨
      2 * (den * halfEven num den) = 2 * num + den → Even (halfEven num den)) := by
  have hsplit := Nat.div_add_mod num den
  have hlt := Nat.mod_lt num h
  rw [Nat.even_iff]
  unfold halfEven
  split
  · omega
  · split
    · rw [Nat.mul_succ]
      omega
    · rcases Nat.mod_two_eq_zero_or_one (num / den) with heven | hodd
      · rw [heven, Nat.add_zero]
        omega
      · rw [hodd, Nat.mul_succ]
        omega

theorem halfEven_near (num : Nat) {den : Nat} (h : 0 < den) :
    |(num / den : ℚ) - halfEven num den| ≤ 1 / 2 ∧
      (|(num / den : ℚ) - halfEven num den| = 1 / 2 → Even (halfEven num den)) := by
  obtain ⟨habove, hbelow, heven⟩ := two_mul_halfEven num h
  have hden : (0 : ℚ) < den := Nat.cast_pos.2 h
  have hscaled : (num / den : ℚ) - halfEven num den =
      (2 * num - 2 * (den * halfEven num den)) / (2 * den) := by
    field_simp
  have hhalf : (1 / 2 : ℚ) = den / (2 * den) := by
    field_simp
  have habove : (2 * num : ℚ) ≤ 2 * (den * halfEven num den) + den := by exact_mod_cast habove
  have hbelow : (2 * (den * halfEven num den) : ℚ) ≤ 2 * num + den := by exact_mod_cast hbelow
  rw [hscaled, hhalf, abs_div, abs_of_pos (by linarith : (0 : ℚ) < 2 * den)]
  constructor
  · gcongr
    rw [abs_le]
    constructor <;> linarith
  · intro htie
    rw [div_left_inj' (by linarith)] at htie
    apply heven
    rcases eq_or_eq_neg_of_abs_eq htie with hright | hleft
    · left
      have : (2 * num : ℚ) = 2 * (den * halfEven num den) + den := by linarith
      exact_mod_cast this
    · right
      have : (2 * (den * halfEven num den) : ℚ) = 2 * num + den := by linarith
      exact_mod_cast this

-- ---------------------------------------------------------------------------
-- Rounding to a magnitude
-- ---------------------------------------------------------------------------

/-- Of two neighbours around a number one that is at most half their distance away is the
nearer one, and nothing that is not between them is nearer. -/
theorem abs_sub_le_of_gap {q low width near other : ℚ} (hlow : low ≤ q) (hhigh : q ≤ low + width)
    (hnear : near = low ∨ near = low + width) (hhalf : |q - near| ≤ width / 2)
    (hother : other ≤ low ∨ low + width ≤ other) :
    |q - near| ≤ |q - other| ∧
      (other ≠ near → |q - other| = |q - near| → |q - near| = width / 2) := by
  have hfar : |q - other| = q - other ∧ other ≤ low ∨
      |q - other| = other - q ∧ low + width ≤ other := by
    rcases hother with hbelow | habove
    · exact .inl ⟨abs_of_nonneg (by linarith), hbelow⟩
    · exact .inr ⟨by rw [abs_sub_comm, abs_of_nonneg (by linarith)], habove⟩
  have hclose : |q - near| = q - low ∧ near = low ∨
      |q - near| = low + width - q ∧ near = low + width := by
    rcases hnear with rfl | rfl
    · exact .inl ⟨abs_of_nonneg (by linarith), rfl⟩
    · exact .inr ⟨by rw [abs_sub_comm, abs_of_nonneg (by linarith)], rfl⟩
  rcases hfar with ⟨hfar, hother⟩ | ⟨hfar, hother⟩ <;>
    rcases hclose with ⟨hclose, hnear⟩ | ⟨hclose, hnear⟩ <;>
    rw [hclose] at hhalf ⊢ <;>
    rw [hfar] <;>
    refine ⟨by linarith, fun hne htie => ?_⟩
  · exact absurd (by linarith) hne
  · linarith
  · linarith
  · exact absurd (by linarith) hne

theorem halfEven_width (num : Nat) {den width : Nat} (hden : 0 < den) (hwidth : 0 < width) :
    ((num / (den * width) * width : Nat) : ℚ) ≤ num / den ∧
    (num / den : ℚ) ≤ (num / (den * width) * width : Nat) + width ∧
    |(num / den : ℚ) - (halfEven num (den * width) * width : Nat)| ≤ width / 2 ∧
    (|(num / den : ℚ) - (halfEven num (den * width) * width : Nat)| = width / 2 →
      Even (halfEven num (den * width))) := by
  have hdenq : (0 : ℚ) < den := Nat.cast_pos.2 hden
  have hwidthq : (0 : ℚ) < width := Nat.cast_pos.2 hwidth
  have hscaled := Nat.mul_pos hden hwidth
  obtain ⟨hhalf, heven⟩ := halfEven_near num hscaled
  have hdist : |(num / den : ℚ) - (halfEven num (den * width) * width : Nat)| =
      |(num / (den * width : Nat) : ℚ) - halfEven num (den * width)| * width := by
    rw [← abs_of_pos hwidthq, ← abs_mul]
    congr 1
    push_cast
    field_simp
  refine ⟨?_, ?_, ?_, fun htie => heven ?_⟩
  · rw [le_div_iff₀ hdenq]
    have := Nat.div_mul_le_self num (den * width)
    exact_mod_cast (by linarith : num / (den * width) * width * den ≤ num)
  · rw [div_le_iff₀ hdenq]
    have := (Nat.lt_mul_div_succ num hscaled).le
    exact_mod_cast (by linarith : num ≤ (num / (den * width) * width + width) * den)
  · rw [hdist]
    linarith [mul_le_mul_of_nonneg_right hhalf hwidthq.le]
  · rw [hdist] at htie
    exact mul_right_cancel₀ hwidthq.ne' (by linarith)

theorem isNearest_nearestUnits (num : Nat) {den : Nat} (h : 0 < den) :
    IsNearest (num / den) (nearestUnits num den) := by
  obtain ⟨hlow, hhigh, hhalf, heven⟩ := halfEven_width num h (step_pos (num / den))
  have hnear : ((nearestUnits num den : Nat) : ℚ) =
      (num / (den * quotientStep num den) * quotientStep num den : Nat) ∨
      ((nearestUnits num den : Nat) : ℚ) =
        (num / (den * quotientStep num den) * quotientStep num den : Nat) +
          quotientStep num den := by
    rw [nearestUnits]
    rcases halfEven_cases num (den * quotientStep num den) with heq | heq
    · exact .inl (by rw [heq])
    · exact .inr (by rw [heq, Nat.succ_mul]; push_cast; rfl)
  have hgap {other : Nat} (hother : step other ∣ other) :
      (other : ℚ) ≤ (num / (den * quotientStep num den) * quotientStep num den : Nat) ∨
      ((num / (den * quotientStep num den) * quotientStep num den : Nat) : ℚ) +
        quotientStep num den ≤ other := by
    have hgrid := grid_gap hother (num / den)
    rw [Nat.div_div_eq_div_mul, Nat.succ_mul] at hgrid
    exact_mod_cast hgrid
  have hbest {other : Nat} (hother : step other ∣ other) :=
    abs_sub_le_of_gap hlow hhigh hnear hhalf (hgap hother)
  refine ⟨step_nearestUnits_dvd num den, fun other hother => (hbest hother).1, ?_⟩
  intro other hother hne htie
  have hcount : halfEven num (den * quotientStep num den) ≤ 2 ^ 53 := by
    have hle := halfEven_le num (den * quotientStep num den)
    have hlt := div_quotientStep_lt num den
    rw [Nat.pow_eq] at hlt
    omega
  have hhalfway := (hbest hother).2 (Nat.cast_injective.ne hne) htie
  exact even_significand hcount (heven hhalfway) _

-- ---------------------------------------------------------------------------
-- The limit
-- ---------------------------------------------------------------------------

theorem odd_significand_of_le_of_lt (hgrid : step units ∣ units)
    (hle : (2 ^ 53 - 1) * 2 ^ k ≤ units) (hlt : units < 2 ^ 53 * 2 ^ k) :
    units = (2 ^ 53 - 1) * 2 ^ k ∧ ¬Even (significand units) := by
  have hpos := Nat.two_pow_pos k
  have hlog : 52 + k ≤ units.log2 := by
    rw [Nat.le_log2 (by omega), Nat.pow_add]
    exact Nat.le_trans (Nat.mul_le_mul_right _ (by decide)) hle
  have hstep : 2 ^ k ∣ step units := Nat.pow_dvd_pow 2 (by omega)
  obtain ⟨n, hn⟩ := hstep.trans hgrid
  rw [Nat.mul_comm] at hn
  subst hn
  obtain rfl : n = 2 ^ 53 - 1 := by
    have := Nat.le_of_mul_le_mul_right hle hpos
    have := Nat.lt_of_mul_lt_mul_right hlt
    omega
  refine ⟨rfl, ?_⟩
  rw [significand_mul_pow _ _ (by decide) hstep]
  decide

theorem IsNearest.lt_limit_iff (h : IsNearest q units) (k : Nat) :
    units < 2 ^ 53 * 2 ^ k ↔ q < 2 ^ 53 * 2 ^ k - 2 ^ k / 2 := by
  have hpos : (0 : ℚ) < 2 ^ k := by positivity
  have hlimit : ((2 ^ 53 * 2 ^ k : Nat) : ℚ) = 2 ^ 53 * 2 ^ k := by push_cast; ring
  have hlargest : (((2 ^ 53 - 1) * 2 ^ k : Nat) : ℚ) = 2 ^ 53 * 2 ^ k - 2 ^ k := by
    push_cast
    ring
  have hstep : step (2 ^ 53 * 2 ^ k) ∣ 2 ^ 53 * 2 ^ k := step_mul_dvd (Nat.le_refl _)
  constructor
  · intro hlt
    by_contra hge
    rw [not_lt] at hge
    have hless : (units : ℚ) < 2 ^ 53 * 2 ^ k := hlimit ▸ Nat.cast_lt.2 hlt
    have hnear := h.nearest _ hstep
    rw [hlimit] at hnear
    have hle : (2 ^ 53 - 1) * 2 ^ k ≤ units := by
      rw [← Nat.cast_le (α := ℚ), hlargest]
      rcases abs_cases (q - units) with ⟨heq, -⟩ | ⟨-, hbelow⟩
      · rcases abs_cases (q - 2 ^ 53 * 2 ^ k) with ⟨heq', -⟩ | ⟨heq', -⟩ <;> linarith
      · linarith
    obtain ⟨rfl, hodd⟩ := odd_significand_of_le_of_lt h.onGrid hle hlt
    -- It is the largest magnitude before the power of two, and the number halfway between them.
    refine hodd (h.even _ hstep (Nat.ne_of_gt hlt) ?_)
    rw [hlargest, abs_of_pos (by linarith)] at hnear
    rw [hlimit, hlargest, abs_of_pos (by linarith : (0 : ℚ) < q - (2 ^ 53 * 2 ^ k - 2 ^ k))]
    rcases abs_cases (q - 2 ^ 53 * 2 ^ k) with ⟨heq, -⟩ | ⟨heq, -⟩ <;> linarith
  · intro hlt
    by_contra hge
    have hmore : (2 ^ 53 * 2 ^ k : ℚ) ≤ units := hlimit ▸ Nat.cast_le.2 (Nat.not_lt.1 hge)
    have hnear := h.nearest _ (Dvd.dvd.mul_left (step_mul_pow_dvd (by decide) k) (2 ^ 53 - 1))
    rw [hlargest, abs_sub_comm, abs_of_nonneg (by linarith)] at hnear
    rcases abs_cases (q - (2 ^ 53 * 2 ^ k - 2 ^ k)) with ⟨heq, -⟩ | ⟨heq, -⟩ <;> linarith

end Rech.Binary64
