import Mathlib.Data.Rat.Floor
import Rech.Proofs.Binary64.Rational
import Rech.Run.Expression

/-!
# Quotients and remainders

Division by zero gives an infinity, or no number for zero by zero, and any other
quotient of two numbers is rounded once. The remainder is the one of truncated
division, exact over the rationals however large the quotient is, since it is
computed on units and never from a rounded quotient. Both have a result for all
doubles, so the operators of the language never fail on numbers.
-/

namespace Rech.Binary64

def truncate (q : ℚ) : ℤ := if 0 ≤ q then ⌊q⌋ else ⌈q⌉

/-- What `a % b` is. -/
inductive IsRemainder : Binary64 → Binary64 → Binary64 → Prop
  | undefined (h : b.value? = some 0 ∨ (∃ m, a = .infinite m) ∨ a = .nan ∨ b = .nan) :
      IsRemainder a b .nan
  | byInfinite (dividend : a.value? = some x) : IsRemainder a (.infinite n) a
  | exact (dividend : a.value? = some x) (divisor : b.value? = some y) (nonzero : y ≠ 0)
      (value : r.value? = some z) (truncated : z = x - truncate (x / y) * y) (below : |z| < |y|)
      (multiple : ∃ k : ℤ, x - z = k * y) (sign : r.negative? = a.negative?) : IsRemainder a b r

/-- What `a / b` is. The sign of a quotient is negative if the signs differ. -/
inductive IsQuotient : Binary64 → Binary64 → Binary64 → Prop
  | notNumber (h : a = .nan ∨ b = .nan) : IsQuotient a b .nan
  | zeroByZero (dividend : a.value? = some 0) (divisor : b.value? = some 0) : IsQuotient a b .nan
  | byZero (divisor : b.value? = some 0) (nonzero : a.value? ≠ some 0)
      (sign : a.negative? = some m) (sign' : b.negative? = some n) :
      IsQuotient a b (.infinite (m != n))
  | infiniteByInfinite : IsQuotient (.infinite m) (.infinite n) .nan
  | infinite (divisor : b.value? = some y) (nonzero : y ≠ 0) (sign : b.negative? = some n) :
      IsQuotient (.infinite m) b (.infinite (m != n))
  | byInfinite (dividend : a.value? = some x) (sign : a.negative? = some m) :
      IsQuotient a (.infinite n) (zero (m != n))
  | rounded (dividend : a.value? = some x) (divisor : b.value? = some y) (nonzero : y ≠ 0)
      (sign : a.negative? = some m) (sign' : b.negative? = some n)
      (rounds : Rounds (m != n) (x / y) q) : IsQuotient a b q

-- ---------------------------------------------------------------------------
-- Signs of products and quotients
-- ---------------------------------------------------------------------------

theorem signed_sub (negative : Bool) (a b : ℚ) :
    signed negative a - signed negative b = signed negative (a - b) := by
  cases negative with
  | false => rfl
  | true => exact neg_sub_neg a b |>.trans (neg_sub a b).symm

theorem signed_mul (m n : Bool) (a b : ℚ) : signed m a * signed n b = signed (m != n) (a * b) := by
  cases m <;> cases n <;> simp [signed]

theorem signed_div (m n : Bool) (a b : ℚ) : signed m a / signed n b = signed (m != n) (a / b) := by
  cases m <;> cases n <;> simp [signed, neg_div, div_neg]

theorem signed_units_eq_zero_iff {units : Nat} :
    signed negative (units / one) = 0 ↔ units = 0 := by
  have hunits : (units / one : ℚ) = 0 ↔ units = 0 := by
    rw [div_eq_zero_iff, or_iff_left cast_one_pos.ne', Nat.cast_eq_zero]
  cases negative with
  | false => exact hunits
  | true => exact neg_eq_zero.trans hunits

theorem truncate_neg (q : ℚ) : truncate (-q) = -truncate q := by
  rcases lt_trichotomy q 0 with hneg | rfl | hpos
  · rw [truncate, truncate, if_pos (neg_nonneg.2 hneg.le), if_neg hneg.not_ge, Int.floor_neg]
  · rfl
  · rw [truncate, truncate, if_neg (neg_neg_of_pos hpos).not_ge, if_pos hpos.le, Int.ceil_neg]

theorem cast_truncate_signed (negative : Bool) (q : ℚ) :
    (truncate (signed negative q) : ℚ) = signed negative (truncate q) := by
  cases negative with
  | false => rfl
  | true => rw [signed, if_pos rfl, truncate_neg, Int.cast_neg]; rfl

theorem truncate_div (a b : Nat) : truncate (a / b) = (a / b : Nat) := by
  rw [truncate, if_pos (div_nonneg (Nat.cast_nonneg a) (Nat.cast_nonneg b)),
    Rat.floor_natCast_div_natCast]
  rfl

-- ---------------------------------------------------------------------------
-- Remainders
-- ---------------------------------------------------------------------------

theorem units_div_units (a b : Nat) : (a / one : ℚ) / (b / one) = a / b :=
  div_div_div_cancel_right₀ cast_one_pos.ne' _ _

theorem truncated_units (m n : Bool) (a b : Nat) :
    signed m (a / one) - truncate (signed m (a / one) / signed n (b / one)) * signed n (b / one) =
      signed m ((a % b : Nat) / one) := by
  have hsigns : ((m != n) != n) = m := by cases m <;> cases n <;> rfl
  have hmod : (a : ℚ) = b * (a / b : Nat) + (a % b : Nat) := by
    exact_mod_cast (Nat.div_add_mod a b).symm
  rw [signed_div, units_div_units, cast_truncate_signed, truncate_div, signed_mul, hsigns,
    signed_sub]
  congr 1
  rw [Int.cast_natCast, mul_div_assoc', ← sub_div]
  congr 1
  linarith

theorem isRemainder_finite (m n : Bool) (ha : Representable a) (hb : Representable b)
    (hne : b ≠ 0) :
    IsRemainder (.finite m a ha) (.finite n b hb)
      (.finite m (a % b) (representable_mod ha hb hne)) := by
  have hdivisor : signed n (b / one) ≠ 0 := mt signed_units_eq_zero_iff.1 hne
  have htruncated := truncated_units m n a b
  refine .exact rfl rfl hdivisor rfl htruncated.symm ?_ ?_ rfl
  · have hlt : ((a % b : Nat) / one : ℚ) < b / one :=
      div_lt_div_of_pos_right (Nat.cast_lt.2 (Nat.mod_lt a (Nat.pos_of_ne_zero hne))) cast_one_pos
    rwa [abs_signed, abs_signed, abs_of_nonneg (div_one_nonneg (Nat.cast_nonneg _)),
      abs_of_nonneg (div_one_nonneg (Nat.cast_nonneg _))]
  · rw [← htruncated, sub_sub_cancel]
    exact ⟨_, rfl⟩

theorem value?_finite_zero (hb : Representable 0) : value? (.finite n 0 hb) = some 0 := by
  rw [value?, Nat.cast_zero, zero_div, signed_zero]

theorem isRemainder_rem (a b : Binary64) : IsRemainder a b (a.rem b) := by
  cases a with
  | nan => exact .undefined (.inr (.inr (.inl rfl)))
  | infinite m => cases b <;> exact .undefined (.inr (.inl ⟨m, rfl⟩))
  | finite m a ha =>
    cases b with
    | nan => exact .undefined (.inr (.inr (.inr rfl)))
    | infinite n => exact .byInfinite rfl
    | finite n b hb =>
      rw [rem]
      split
      next hzero =>
        subst hzero
        exact .undefined (.inl (value?_finite_zero hb))
      next hne => exact isRemainder_finite m n ha hb hne

-- ---------------------------------------------------------------------------
-- Quotients
-- ---------------------------------------------------------------------------

theorem isQuotient_finite (m n : Bool) (ha : Representable a) (hb : Representable b)
    (hne : b ≠ 0) :
    IsQuotient (.finite m a ha) (.finite n b hb) (nearest (m != n) (a * one) b) := by
  have hdivisor : signed n (b / one) ≠ 0 := mt signed_units_eq_zero_iff.1 hne
  refine .rounded rfl rfl hdivisor rfl rfl ?_
  have hrounds := rounds_nearest_mul_one (m != n) a (Nat.pos_of_ne_zero hne)
  rwa [← units_div_units, ← signed_div] at hrounds

theorem isQuotient_div (a b : Binary64) : IsQuotient a b (a.div b) := by
  cases a with
  | nan => exact .notNumber (.inl rfl)
  | infinite m =>
    cases b with
    | nan => exact .notNumber (.inr rfl)
    | infinite n => exact .infiniteByInfinite
    | finite n b hb =>
      by_cases hzero : b = 0
      · subst hzero
        exact .byZero (value?_finite_zero hb) (by simp [value?]) rfl rfl
      · exact .infinite rfl (mt signed_units_eq_zero_iff.1 hzero) rfl
  | finite m a ha =>
    cases b with
    | nan => exact .notNumber (.inr rfl)
    | infinite n => exact .byInfinite rfl rfl
    | finite n b hb =>
      rw [div]
      split
      next hzero =>
        subst hzero
        split
        next hzero =>
          subst hzero
          exact .zeroByZero (value?_finite_zero ha) (value?_finite_zero hb)
        next hne =>
          refine .byZero (value?_finite_zero hb) ?_ rfl rfl
          exact fun heq => hne (signed_units_eq_zero_iff.1 (Option.some.inj heq))
      next hne => exact isQuotient_finite m n ha hb hne

/-- Remainders are exact and quotients rounded once, and neither operator fails on
numbers. -/
theorem divides_totally (a b : Binary64) :
    (∃ r, Value.math "%" (.number a) (.number b) = .ok (.number r) ∧ IsRemainder a b r) ∧
    ∃ q, Value.math "/" (.number a) (.number b) = .ok (.number q) ∧ IsQuotient a b q :=
  ⟨⟨_, rfl, isRemainder_rem a b⟩, ⟨_, rfl, isQuotient_div a b⟩⟩

end Rech.Binary64
