import Rech.Text.DecimalDigit
import Rech.Text.Digits

/-!
# Digits and what they stand for

The digits of a number have no zero in front, unless they are a single zero, and
there are more than `k` of them from the k-th power of ten on. The characters of
digits are read back one by one.
-/

namespace Rech.Text

-- ---------------------------------------------------------------------------
-- Values
-- ---------------------------------------------------------------------------

theorem valueOf_append (ds es : List Nat) :
    valueOf (ds ++ es) = valueOf ds * Nat.pow 10 es.length + valueOf es := by
  induction es generalizing ds with
  | nil => simp [valueOf]
  | cons e es ih =>
    have hsplit : ds ++ e :: es = (ds ++ [e]) ++ es := by simp
    have hcons := ih [e]
    rw [List.singleton_append] at hcons
    rw [hsplit, ih, hcons, valueOf_append_singleton, List.length_cons]
    simp only [Nat.pow_eq, Nat.pow_succ, valueOf, List.foldl_cons, List.foldl_nil]
    grind

theorem valueOf_zeros_append (count : Nat) (ds : List Nat) :
    valueOf (List.replicate count 0 ++ ds) = valueOf ds := by
  have hzeros : valueOf (List.replicate count 0) = 0 := by
    induction count with
    | zero => rfl
    | succ count ih => rw [List.replicate_succ', valueOf_append_singleton, ih]
  rw [valueOf_append, hzeros, Nat.zero_mul, Nat.zero_add]

theorem valueOf_append_zeros (ds : List Nat) (count : Nat) :
    valueOf (ds ++ List.replicate count 0) = valueOf ds * Nat.pow 10 count := by
  have hzeros := valueOf_zeros_append count []
  rw [List.append_nil] at hzeros
  rw [valueOf_append, hzeros, List.length_replicate]
  rfl

-- ---------------------------------------------------------------------------
-- Digits of a number
-- ---------------------------------------------------------------------------

theorem exists_digits_eq_cons (h : n ≠ 0) : ∃ d ds, digits n = d :: ds ∧ d ≠ 0 := by
  fun_induction digits n with
  | case1 n hn => exact ⟨n, [], rfl, h⟩
  | case2 n hn ih =>
    obtain ⟨d, ds, hds, hd⟩ := ih (by omega)
    exact ⟨d, ds ++ [n % 10], by rw [hds, List.cons_append], hd⟩

theorem digits_ne_nil (n : Nat) : digits n ≠ [] := by
  rw [← List.length_pos_iff, length_digits]
  unfold digitCount
  split <;> omega

theorem lt_digitCount_iff (h : n ≠ 0) : k < digitCount n ↔ Nat.pow 10 k ≤ n := by
  fun_induction digitCount n generalizing k with
  | case1 n hn =>
    cases k with
    | zero => simp; omega
    | succ k =>
      have := Nat.pow_le_pow_right (n := 10) (by decide) (Nat.succ_le_succ k.zero_le)
      simp only [Nat.pow_eq]
      omega
  | case2 n hn ih =>
    cases k with
    | zero => simp; omega
    | succ k =>
      rw [Nat.add_lt_add_iff_right, ih (by omega), Nat.le_div_iff_mul_le (by decide)]
      simp only [Nat.pow_eq, Nat.pow_succ]

-- ---------------------------------------------------------------------------
-- Characters
-- ---------------------------------------------------------------------------

theorem digitValue?_digitChar (h : d < 10) : digitValue? (digitChar d) = some d := by
  revert d
  decide

variable {ds : List Nat}

theorem filterMap_digitChar (h : ∀ d ∈ ds, d < 10) :
    (ds.map digitChar).filterMap digitValue? = ds := by
  rw [List.filterMap_map]
  induction ds with
  | nil => rfl
  | cons d ds ih =>
    obtain ⟨hd, hds⟩ := List.forall_mem_cons.1 h
    rw [List.filterMap_cons, Function.comp_apply, digitValue?_digitChar hd, ih hds]

theorem valueOf_filterMap_decimal (n : Nat) :
    valueOf ((decimal n).filterMap digitValue?) = n := by
  rw [decimal, filterMap_digitChar (digits_lt_ten n), valueOf_digits]

theorem forall_digitChars {P : Char → Prop} (hP : ∀ d < 10, P (digitChar d))
    (h : ∀ d ∈ ds, d < 10) : ∀ c ∈ ds.map digitChar, P c := by
  rw [List.forall_mem_map]
  exact fun d hd => hP d (h d hd)

theorem isDigit_digitChars (h : ∀ d ∈ ds, d < 10) : ∀ c ∈ ds.map digitChar, isDigit c = true :=
  forall_digitChars (P := fun c => isDigit c = true) (by decide) h

end Rech.Text
