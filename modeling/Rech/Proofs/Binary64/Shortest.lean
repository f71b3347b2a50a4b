import Rech.Proofs.Binary64.Rounding
import Rech.Proofs.Text.Digits

/-!
# The fewest digits that read back

The search ends at a neighbour of the magnitude on some grid of powers of ten,
and that neighbour is rounded to the magnitude. So digits and exponent decide
which magnitude they were found for. A neighbour lies between the same powers of
ten as the magnitude, or is itself the upper one.
-/

namespace Rech.Binary64

open Text

-- ---------------------------------------------------------------------------
-- The search
-- ---------------------------------------------------------------------------

theorem halfEven_cases (num den : Nat) :
    halfEven num den = num / den ∨ halfEven num den = num / den + 1 := by
  unfold halfEven
  split
  · exact .inl rfl
  · split
    · exact .inr rfl
    · omega

structure Found (units coefficient drop : Nat) : Prop where
  near : coefficient = units * quantaPerUnit / Nat.pow 10 drop ∨
    coefficient = units * quantaPerUnit / Nat.pow 10 drop + 1
  reads : nearestUnits (coefficient * Nat.pow 10 drop) quantaPerUnit = units

theorem found_of_neighbour? (h : neighbour? units drop = some coefficient) :
    Found units coefficient drop := by
  have hmem := List.mem_of_find?_eq_some h
  have hreads := List.find?_some h
  simp only [List.mem_cons, List.not_mem_nil, or_false] at hmem
  refine ⟨?_, by simpa [readsBack] using hreads⟩
  rcases hmem with rfl | rfl | rfl
  · exact halfEven_cases _ _
  · exact .inl rfl
  · exact .inr rfl

theorem found_all (h : step units ∣ units) : Found units (units * quantaPerUnit) 0 where
  near := .inl (Nat.div_one _).symm
  reads := by
    have pow_ten_add : Nat.pow 10 0 = 1 := rfl
    rw [pow_ten_add, Nat.mul_one, nearestUnits_congr quantaPerUnit_pos Nat.one_pos (Nat.mul_one _),
      nearestUnits_of_dvd h]

theorem descend_of_candidates {candidate? : Nat → Option Nat} {P : Nat → Nat → Prop}
    (hwhole : P whole 0) (h : ∀ index candidate, candidate? index = some candidate →
      P candidate index) (bound : Nat) :
    P (descend candidate? whole bound).1 (descend candidate? whole bound).2 ∧
      (descend candidate? whole bound).2 ≤ bound := by
  induction bound with
  | zero => exact ⟨hwhole, Nat.le_refl 0⟩
  | succ bound ih =>
    rw [descend]
    split
    next candidate hcandidate => exact ⟨h _ _ hcandidate, Nat.le_refl _⟩
    next => exact ⟨ih.1, Nat.le_succ_of_le ih.2⟩

theorem found_shortestFrom (h : step units ∣ units) (drop : Nat) :
    Found units (shortestFrom units drop).1 (shortestFrom units drop).2 ∧
      (shortestFrom units drop).2 ≤ drop :=
  descend_of_candidates (found_all h) (fun _ _ => found_of_neighbour?) drop

-- ---------------------------------------------------------------------------
-- Its digits
-- ---------------------------------------------------------------------------

theorem exists_withoutTrailingZeros (ds : List Nat) :
    ∃ count, ds = withoutTrailingZeros ds ++ List.replicate count 0 := by
  refine ⟨(ds.reverse.takeWhile (· = 0)).length, ?_⟩
  have hzeros : ds.reverse.takeWhile (· = 0) =
      List.replicate (ds.reverse.takeWhile (· = 0)).length 0 := by
    refine List.eq_replicate_iff.2 ⟨rfl, fun d hd => ?_⟩
    simpa using List.all_eq_true.1 List.all_takeWhile d hd
  have hsplit := congrArg List.reverse
    (List.takeWhile_append_dropWhile (p := (· = 0)) (l := ds.reverse))
  rw [List.reverse_append, List.reverse_reverse, hzeros, List.reverse_replicate] at hsplit
  exact hsplit.symm

theorem exists_withoutTrailingZeros_cons (hd : d ≠ 0) (ds : List Nat) :
    ∃ es, withoutTrailingZeros (d :: ds) = d :: es := by
  obtain ⟨count, hcount⟩ := exists_withoutTrailingZeros (d :: ds)
  cases hzeros : withoutTrailingZeros (d :: ds) with
  | nil =>
    rw [hzeros, List.nil_append] at hcount
    exact absurd (List.eq_of_mem_replicate (hcount ▸ List.mem_cons_self)) hd
  | cons e es =>
    rw [hzeros, List.cons_append, List.cons.injEq] at hcount
    exact ⟨es, by rw [hcount.1]⟩

/-- The number of quanta digits behind the last digit. -/
def Scientific.places (number : Scientific) : Nat :=
  (number.exponent + 1075 - number.digits.length).toNat

def Scientific.quanta (number : Scientific) : Nat :=
  valueOf number.digits * Nat.pow 10 number.places

structure Scientific.Spells (number : Scientific) (units : Nat) : Prop where
  inside : ∀ d ∈ number.digits, d < 10
  leading : ∃ d ds, number.digits = d :: ds ∧ d ≠ 0
  whole : (number.places : Int) = number.exponent + 1075 - number.digits.length
  reads : nearestUnits number.quanta quantaPerUnit = units

theorem Scientific.Spells.unique {number : Scientific} (h : number.Spells m)
    (h' : number.Spells n) : m = n :=
  h.reads.symm.trans h'.reads

theorem exists_shortest (hne : units ≠ 0) (h : step units ∣ units) : ∃ coefficient drop,
    Found units coefficient drop ∧ coefficient ≠ 0 ∧
    Nat.pow 10 drop ≤ units * quantaPerUnit ∧
    (shortest units).digits = withoutTrailingZeros (digits coefficient) ∧
    (shortest units).exponent = (digitCount coefficient : Int) - 1 + drop - 1074 := by
  have hquanta : units * quantaPerUnit ≠ 0 :=
    Nat.mul_ne_zero hne (Nat.ne_of_gt quantaPerUnit_pos)
  obtain ⟨hfound, hdrop⟩ := found_shortestFrom h (digitCount (units * quantaPerUnit) - 1)
  have hcount : 0 < digitCount (units * quantaPerUnit) :=
    (lt_digitCount_iff hquanta).2 (Nat.one_le_iff_ne_zero.2 hquanta)
  have hle := (lt_digitCount_iff hquanta).1
    (Nat.lt_of_le_of_lt hdrop (Nat.sub_lt hcount Nat.one_pos))
  have hpos := Nat.div_pos hle (pow_ten_pos _)
  refine ⟨_, _, hfound, ?_, hle, rfl, rfl⟩
  rcases hfound.near with heq | heq <;> omega

theorem shortest_spells (hne : units ≠ 0) (h : step units ∣ units) :
    (shortest units).Spells units := by
  obtain ⟨coefficient, drop, hfound, hcoefficient, -, hdigits, hexponent⟩ := exists_shortest hne h
  obtain ⟨count, hcount⟩ := exists_withoutTrailingZeros (digits coefficient)
  have hlength := congrArg List.length hcount
  rw [length_digits, List.length_append, List.length_replicate] at hlength
  have hplaces : (shortest units).places = count + drop := by
    rw [Scientific.places, hdigits, hexponent]
    omega
  refine ⟨?_, ?_, ?_, ?_⟩
  · intro d hd
    rw [hdigits] at hd
    exact digits_lt_ten coefficient d (hcount ▸ List.mem_append_left _ hd)
  · obtain ⟨d, ds, hds, hd⟩ := exists_digits_eq_cons hcoefficient
    obtain ⟨es, hes⟩ := exists_withoutTrailingZeros_cons hd ds
    exact ⟨d, es, by rw [hdigits, hds, hes], hd⟩
  · rw [hplaces, hdigits, hexponent]
    omega
  · have hvalue := valueOf_append_zeros (withoutTrailingZeros (digits coefficient)) count
    rw [← hcount, valueOf_digits] at hvalue
    rw [Scientific.quanta, hplaces, hdigits, pow_ten_add, ← Nat.mul_assoc, ← hvalue]
    exact hfound.reads

-- ---------------------------------------------------------------------------
-- Its exponent
-- ---------------------------------------------------------------------------

theorem pow_le_mul_pow_iff (hne : coefficient ≠ 0) (k drop : Nat) :
    Nat.pow 10 k ≤ coefficient * Nat.pow 10 drop ↔ k < digitCount coefficient + drop := by
  rcases Nat.lt_or_ge k drop with hlt | hge
  · have hpow : Nat.pow 10 k ≤ Nat.pow 10 drop :=
      Nat.pow_le_pow_right (by decide) (Nat.le_of_lt hlt)
    have hmul := Nat.le_mul_of_pos_left (Nat.pow 10 drop) (Nat.pos_of_ne_zero hne)
    exact iff_of_true (Nat.le_trans hpow hmul) (by omega)
  · obtain ⟨j, rfl⟩ := Nat.exists_eq_add_of_le' hge
    rw [pow_ten_add, Nat.mul_le_mul_right_iff (pow_ten_pos drop), ← lt_digitCount_iff hne]
    omega

section
variable {units : Nat} (hne : units ≠ 0) (h : step units ∣ units)
include hne h

theorem le_exponent_shortest (hk : Nat.pow 10 k ≤ units * quantaPerUnit) :
    (k : Int) ≤ (shortest units).exponent + 1074 := by
  obtain ⟨coefficient, drop, hfound, hcoefficient, hdrop, -, hexponent⟩ := exists_shortest hne h
  have hle : Nat.pow 10 k ≤ coefficient * Nat.pow 10 drop := by
    rcases Nat.lt_or_ge k drop with hlt | hge
    · rw [pow_le_mul_pow_iff hcoefficient]
      omega
    · obtain ⟨j, rfl⟩ := Nat.exists_eq_add_of_le' hge
      rw [pow_ten_add, ← Nat.le_div_iff_mul_le (pow_ten_pos drop)] at hk
      rw [pow_ten_add, Nat.mul_le_mul_right_iff (pow_ten_pos drop)]
      rcases hfound.near with rfl | rfl <;> omega
  rw [pow_le_mul_pow_iff hcoefficient] at hle
  rw [hexponent]
  omega

theorem exponent_shortest_lt (hk : units * quantaPerUnit < Nat.pow 10 k) :
    (shortest units).exponent + 1074 < k ∨ nearestUnits (Nat.pow 10 k) quantaPerUnit = units := by
  obtain ⟨coefficient, drop, hfound, hcoefficient, hdrop, -, hexponent⟩ := exists_shortest hne h
  have hlt : drop < k :=
    (Nat.pow_lt_pow_iff_right (by decide)).1 (Nat.lt_of_le_of_lt hdrop hk)
  obtain ⟨j, rfl⟩ := Nat.exists_eq_add_of_le' (Nat.le_of_lt hlt)
  have hle : coefficient ≤ Nat.pow 10 j := by
    rw [pow_ten_add, ← Nat.div_lt_iff_lt_mul (pow_ten_pos drop)] at hk
    rcases hfound.near with rfl | rfl <;> omega
  rcases Nat.lt_or_eq_of_le hle with hless | rfl
  · left
    have hless : ¬Nat.pow 10 (j + drop) ≤ coefficient * Nat.pow 10 drop := by
      rw [pow_ten_add, Nat.mul_le_mul_right_iff (pow_ten_pos drop)]
      omega
    rw [pow_le_mul_pow_iff hcoefficient] at hless
    rw [hexponent]
    omega
  · exact .inr (pow_ten_add j drop ▸ hfound.reads)

end

end Rech.Binary64
