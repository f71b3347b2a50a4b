import Rech.Proofs.Binary64.Nearest

/-!
# Doubles as rational numbers

A finite double is a rational number with a sign, which zeros have as well. Rounding is
described on these numbers: the result is a nearest double, its significand is even if
another double is as near, and it is an infinity from halfway between the largest double
and 2^1024 on.
-/

namespace Rech.Binary64

def signed (negative : Bool) (q : ℚ) : ℚ := if negative then -q else q

def value? : Binary64 → Option ℚ
  | .finite negative units _ => some (signed negative (units / one))
  | _ => none

def negative? : Binary64 → Option Bool
  | .nan => none
  | .infinite negative => some negative
  | .finite negative _ _ => some negative

/-- Halfway between the largest double and 2^1024. -/
def overflow : ℚ := 2 ^ 1024 - 2 ^ 970

/-- What a number of a sign is rounded to. -/
inductive Rounds (negative : Bool) (q : ℚ) : Binary64 → Prop
  | infinite (large : overflow ≤ |q|) : Rounds negative q (.infinite negative)
  | finite (small : |q| < overflow) (value : value? (.finite negative units h) = some near)
      (nearest : ∀ x other, value? x = some other → |q - near| ≤ |q - other|)
      (even : ∀ x other, value? x = some other → other ≠ near → |q - other| = |q - near| →
        Even (significand units)) :
      Rounds negative q (.finite negative units h)

-- ---------------------------------------------------------------------------
-- Signs
-- ---------------------------------------------------------------------------

@[simp] theorem abs_signed (negative : Bool) (q : ℚ) : |signed negative q| = |q| := by
  cases negative <;> simp [signed]

theorem abs_signed_sub (negative : Bool) (a b : ℚ) :
    |signed negative a - signed negative b| = |a - b| := by
  cases negative with
  | false => rfl
  | true => rw [signed, signed, if_pos rfl, if_pos rfl, neg_sub_neg, abs_sub_comm]

theorem abs_sub_le_abs_signed_sub (m n : Bool) (ha : 0 ≤ a) (hb : 0 ≤ b) :
    |a - b| ≤ |signed m a - signed n b| := by
  have h := abs_abs_sub_abs_le (signed m a) (signed n b)
  rwa [abs_signed, abs_signed, abs_of_nonneg ha, abs_of_nonneg hb] at h

theorem eq_zero_of_abs_signed_sub {m n : Bool} (ha : 0 ≤ a) (hb : 0 ≤ b) (hne : m ≠ n)
    (h : |signed m a - signed n b| = |a - b|) : a = 0 ∨ b = 0 := by
  have hsum : |signed m a - signed n b| = a + b := by
    cases m <;> cases n <;> first | exact absurd rfl hne | skip
    · rw [signed, signed, if_neg Bool.false_ne_true, if_pos rfl, sub_neg_eq_add]
      exact abs_of_nonneg (add_nonneg ha hb)
    · rw [signed, signed, if_pos rfl, if_neg Bool.false_ne_true, ← neg_add', abs_neg]
      exact abs_of_nonneg (add_nonneg ha hb)
  rw [hsum] at h
  rcases abs_cases (a - b) with ⟨heq, -⟩ | ⟨heq, -⟩
  · exact .inr (by linarith)
  · exact .inl (by linarith)

@[simp] theorem signed_zero (negative : Bool) : signed negative 0 = 0 := by
  cases negative <;> simp [signed]

-- ---------------------------------------------------------------------------
-- Rounding
-- ---------------------------------------------------------------------------

theorem cast_one_pos : (0 : ℚ) < one := Nat.cast_pos.2 one_pos

theorem cast_one : (one : ℚ) = 2 ^ 1074 := by
  unfold one
  generalize 1074 = exponent
  rw [Nat.pow_eq, Nat.cast_pow]
  rfl

theorem div_one_nonneg {q : ℚ} (h : 0 ≤ q) : 0 ≤ q / one := div_nonneg h cast_one_pos.le

theorem limit_eq : limit = 2 ^ 53 * 2 ^ 2045 := by
  unfold limit
  generalize hexponent : 2098 = exponent
  generalize hscale : 2045 = scale
  obtain rfl : exponent = 53 + scale := by omega
  exact Nat.pow_add 2 53 scale

theorem overflow_mul_one : overflow * one = 2 ^ 53 * 2 ^ 2045 - 2 ^ 2045 / 2 := by
  have hlarge : (2 : ℚ) ^ 1024 = 2 ^ 54 * 2 ^ 970 := by rw [← pow_add]
  have hscaled : (2 : ℚ) ^ 2045 = 2 * (2 ^ 970 * 2 ^ 1074) := by rw [← pow_add, ← pow_succ']
  rw [overflow, cast_one, hlarge, hscaled]
  generalize (2 : ℚ) ^ 970 = a
  generalize (2 : ℚ) ^ 1074 = b
  ring

theorem IsNearest.lt_limit_iff_overflow (h : IsNearest q units) :
    units < limit ↔ q / one < overflow := by
  rw [limit_eq, h.lt_limit_iff, div_lt_iff₀ cast_one_pos, overflow_mul_one]

theorem IsNearest.abs_sub_le (h : IsNearest q units) (hother : step other ∣ other) :
    |q / one - units / one| ≤ |q / one - other / one| := by
  rw [← sub_div, ← sub_div, abs_div, abs_div, abs_of_pos cast_one_pos]
  exact div_le_div_of_nonneg_right (h.nearest other hother) cast_one_pos.le

theorem IsNearest.even_significand (h : IsNearest q units) (hother : step other ∣ other)
    (hne : other ≠ units) (htie : |q / one - other / one| = |q / one - units / one|) :
    Even (significand units) := by
  rw [← sub_div, ← sub_div, abs_div, abs_div,
    div_left_inj' (abs_ne_zero.2 cast_one_pos.ne')] at htie
  exact h.even other hother hne htie

theorem exists_of_value? (h : value? x = some q) : ∃ negative units hunits,
    x = .finite negative units hunits ∧ q = signed negative (units / one) := by
  cases x with
  | nan | infinite => nomatch h
  | finite negative units hunits => exact ⟨negative, units, hunits, rfl, (Option.some.inj h).symm⟩

theorem rounds_nearest (negative : Bool) (num : Nat) {den : Nat} (hden : 0 < den) :
    Rounds negative (signed negative (num / den / one)) (nearest negative num den) := by
  have h := isNearest_nearestUnits num hden
  have hunit (units : Nat) : (0 : ℚ) ≤ units / one := div_one_nonneg (Nat.cast_nonneg units)
  have hq : (0 : ℚ) ≤ num / den / one :=
    div_one_nonneg (div_nonneg (Nat.cast_nonneg num) (Nat.cast_nonneg den))
  unfold nearest
  split
  next hlt =>
    refine .finite ?_ rfl ?_ ?_
    · rw [abs_signed, abs_of_nonneg hq]
      exact h.lt_limit_iff_overflow.1 hlt
    · intro x other hother
      obtain ⟨m, units, hunits, rfl, rfl⟩ := exists_of_value? hother
      rw [abs_signed_sub]
      exact (h.abs_sub_le hunits.2).trans (abs_sub_le_abs_signed_sub _ _ hq (hunit _))
    · intro x other hother hne htie
      obtain ⟨m, units, hunits, rfl, rfl⟩ := exists_of_value? hother
      rw [abs_signed_sub] at htie
      have hless := abs_sub_le_abs_signed_sub negative m hq (hunit units)
      rw [htie] at hless
      have heq := le_antisymm hless (h.abs_sub_le hunits.2)
      refine h.even_significand hunits.2 ?_ heq
      -- The same magnitude with the other sign is farther away, unless it is zero.
      rintro rfl
      have hzero : (nearestUnits num den / one : ℚ) = 0 := by
        rcases eq_zero_of_abs_signed_sub hq (hunit _) (fun heq => hne (by rw [heq])) htie with
          hnum | hzero
        · have hbest := h.abs_sub_le representable_zero.2
          rw [hnum, Nat.cast_zero, zero_div, sub_zero, abs_zero, zero_sub, abs_neg] at hbest
          exact abs_nonpos_iff.1 hbest
        · exact hzero
      rw [hzero, signed_zero, signed_zero] at hne
      exact hne rfl
  next hge =>
    refine .infinite ?_
    rw [abs_signed, abs_of_nonneg hq]
    exact not_lt.1 (mt h.lt_limit_iff_overflow.2 hge)

theorem rounds_nearest_mul_one (negative : Bool) (num : Nat) {den : Nat} (hden : 0 < den) :
    Rounds negative (signed negative (num / den)) (nearest negative (num * one) den) := by
  have h := rounds_nearest negative (num * one) hden
  rwa [Nat.cast_mul, mul_div_right_comm, mul_div_cancel_right₀ _ cast_one_pos.ne'] at h

-- ---------------------------------------------------------------------------
-- The one result
-- ---------------------------------------------------------------------------

theorem abs_sub_signed (negative : Bool) (q a : ℚ) :
    |q - signed negative a| = |signed negative q - a| := by
  cases negative with
  | false => rfl
  | true => rw [signed, signed, if_pos rfl, if_pos rfl, ← abs_neg]; congr 1; ring

theorem abs_sub_lt_of_between {a b c q : ℚ} (hac : a < c) (hcb : c < b) (h : |q - a| = |q - b|) :
    |q - c| < |q - a| := by
  have hmiddle : q - a = b - q := by
    rcases abs_eq_abs.1 h with heq | heq <;> linarith
  rw [abs_of_pos (by linarith : 0 < q - a), abs_lt]
  constructor <;> linarith

theorem Rounds.not_lt {hm : Representable m} {hn : Representable n}
    (h : Rounds negative q (.finite negative m hm))
    (h' : Rounds negative q (.finite negative n hn)) : ¬m < n := by
  intro hlt
  cases h with
  | finite _ value nearest even => ?_
  cases h' with
  | finite _ value' nearest' even' => ?_
  obtain rfl := Option.some.inj value
  obtain rfl := Option.some.inj value'
  have htie := le_antisymm (nearest (.finite negative n hn) _ rfl)
    (nearest' (.finite negative m hm) _ rfl)
  have hless : (m / one : ℚ) < n / one :=
    div_lt_div_of_pos_right (Nat.cast_lt.2 hlt) cast_one_pos
  have hne : signed negative (m / one) ≠ signed negative (n / one) := by
    cases negative with
    | false => exact hless.ne
    | true => exact fun heq => hless.ne (neg_injective heq)
  obtain ⟨between, hgrid, hlow, hhigh⟩ := exists_between hm.2 hn.2 hlt
    (even (.finite negative n hn) _ rfl hne.symm htie.symm)
    (even' (.finite negative m hm) _ rfl hne htie)
  have hbetween : Representable between := ⟨Nat.lt_trans hhigh hn.1, hgrid⟩
  have hbest := nearest (.finite negative between hbetween) _ rfl
  rw [abs_sub_signed, abs_sub_signed] at htie hbest
  have hcloser := abs_sub_lt_of_between
    (div_lt_div_of_pos_right (Nat.cast_lt.2 hlow) cast_one_pos)
    (div_lt_div_of_pos_right (Nat.cast_lt.2 hhigh) cast_one_pos) htie
  exact hcloser.not_ge hbest

theorem Rounds.shape (h : Rounds negative q x) : x = .infinite negative ∧ overflow ≤ |q| ∨
    ∃ units hunits, x = .finite negative units hunits ∧ |q| < overflow := by
  cases h with
  | infinite large => exact .inl ⟨rfl, large⟩
  | finite small => exact .inr ⟨_, _, rfl, small⟩

theorem Rounds.unique (h : Rounds negative q x) (h' : Rounds negative q y) : x = y := by
  rcases h.shape with ⟨rfl, large⟩ | ⟨m, hm, rfl, small⟩ <;>
    rcases h'.shape with ⟨rfl, large'⟩ | ⟨n, hn, rfl, small'⟩
  · rfl
  · exact absurd large small'.not_ge
  · exact absurd large' small.not_ge
  · obtain rfl := Nat.le_antisymm (Nat.not_lt.1 (h'.not_lt h)) (Nat.not_lt.1 (h.not_lt h'))
    rfl

end Rech.Binary64
