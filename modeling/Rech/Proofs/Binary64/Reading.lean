import Mathlib.Data.List.TakeWhile
import Rech.Binary64.Written
import Rech.Proofs.Binary64.Shortest

/-!
# Positional forms are read back

Digits with a point among them, or with none, are a numeral as a whole. Where the
point stands does not matter to the number of quanta, so the positional form of the
fewest digits means the magnitude they were found for.
-/

namespace Rech.Binary64

open Text

variable {ws fs : List Nat}

-- ---------------------------------------------------------------------------
-- Numerals
-- ---------------------------------------------------------------------------

theorem ofText_digits (hne : ws ≠ []) (h : ∀ d ∈ ws, d < 10) :
    ofText (ws.map digitChar) = ofDecimal (valueOf ws) 0 := by
  have hdigits := isDigit_digitChars h
  have hleading : leadingNumber? (ws.map digitChar) = some (ws.map digitChar, []) := by
    simp [leadingNumber?, List.takeWhile_eq_self_iff.2 hdigits, List.dropWhile_eq_nil_iff.2 hdigits,
      hne]
  rw [ofText, hleading]
  simp only [List.append_nil, filterMap_digitChar h, List.length_nil]

theorem ofText_pointed (hne : ws ≠ []) (h : ∀ d ∈ ws, d < 10) (h' : ∀ d ∈ fs, d < 10) :
    ofText (ws.map digitChar ++ '.' :: fs.map digitChar) =
      ofDecimal (valueOf (ws ++ fs)) fs.length := by
  have hdigits := isDigit_digitChars h
  have hleading : leadingNumber? (ws.map digitChar ++ '.' :: fs.map digitChar) =
      some (ws.map digitChar, fs.map digitChar) := by
    have htake : (ws.map digitChar ++ '.' :: fs.map digitChar).takeWhile isDigit =
        ws.map digitChar := by
      rw [List.takeWhile_append_of_pos hdigits, List.takeWhile_cons_of_neg (by decide),
        List.append_nil]
    have hdrop : (ws.map digitChar ++ '.' :: fs.map digitChar).dropWhile isDigit =
        '.' :: fs.map digitChar := by
      rw [List.dropWhile_append_of_pos hdigits, List.dropWhile_cons_of_neg (by decide)]
    simp only [leadingNumber?, htake, hdrop, List.takeWhile_eq_self_iff.2 (isDigit_digitChars h')]
    simp [hne]
  rw [ofText, hleading]
  have hall : ∀ d ∈ ws ++ fs, d < 10 := List.forall_mem_append.2 ⟨h, h'⟩
  simp only [← List.map_append, filterMap_digitChar hall, List.length_map]

theorem ofText_decimal (h : Representable (n * one)) :
    ofText (decimal n) = .finite false (n * one) h := by
  rw [decimal, ofText_digits (digits_ne_nil n) (digits_lt_ten n), valueOf_digits, ofDecimal]
  exact nearest_of_representable false h

-- ---------------------------------------------------------------------------
-- The positional form
-- ---------------------------------------------------------------------------

/-- Digits on both sides of a point that stand for the same as the digits alone. -/
structure Scientific.Parts (number : Scientific) (ws fs : List Nat) : Prop where
  whole : ∀ d ∈ ws, d < 10
  fraction : ∀ d ∈ fs, d < 10
  nonempty : ws ≠ []
  written : positional number = ws.map digitChar ++ '.' :: fs.map digitChar
  value : ∃ count, valueOf (ws ++ fs) = valueOf number.digits * Nat.pow 10 count ∧
    number.places + fs.length = count + 1074

theorem forall_mem_zeros_lt (count : Nat) : ∀ d ∈ List.replicate count 0, d < 10 := by
  intro d hd
  rw [List.eq_of_mem_replicate hd]
  decide

namespace Scientific.Spells

variable {number : Scientific} {units : Nat} (h : number.Spells units)
include h

/-- Below one, zeros stand behind the point. -/
theorem parts_of_neg (hneg : number.exponent < 0) :
    number.Parts [0] (List.replicate (number.exponent.natAbs - 1) 0 ++ number.digits) where
  whole := by simp
  fraction := List.forall_mem_append.2 ⟨forall_mem_zeros_lt _, h.inside⟩
  nonempty := by simp
  written := by
    rw [positional, if_pos hneg, List.map_append, List.map_replicate]
    rfl
  value := by
    have hwhole := h.whole
    refine ⟨0, ?_, ?_⟩
    · rw [← List.append_assoc, List.singleton_append, ← List.replicate_succ, valueOf_zeros_append]
      exact (Nat.mul_one _).symm
    · rw [List.length_append, List.length_replicate]
      omega

/-- Digits that end before the point are filled up with zeros. -/
theorem parts_of_short (hnonneg : 0 ≤ number.exponent)
    (hshort : number.digits.length ≤ number.exponent.toNat + 1) :
    number.Parts (number.digits ++
      List.replicate (number.exponent.toNat + 1 - number.digits.length) 0) [0] where
  whole := List.forall_mem_append.2 ⟨h.inside, forall_mem_zeros_lt _⟩
  fraction := by simp
  nonempty := by
    obtain ⟨d, ds, hds, -⟩ := h.leading
    simp [hds]
  written := by
    have htake : (number.digits.map digitChar).take (number.exponent.toNat + 1) =
        number.digits.map digitChar := List.take_of_length_le (by simpa using hshort)
    have hdrop : (number.digits.map digitChar).drop (number.exponent.toNat + 1) = [] :=
      List.drop_of_length_le (by simpa using hshort)
    unfold positional
    dsimp only
    rw [if_neg (by omega), htake, hdrop, List.rightpad, List.length_map, List.map_append,
      List.map_replicate]
    rfl
  value := by
    have hwhole := h.whole
    refine ⟨number.exponent.toNat + 1 - number.digits.length + 1, ?_, ?_⟩
    · rw [List.append_assoc, ← List.replicate_succ', valueOf_append_zeros]
    · rw [List.length_singleton]
      omega

/-- Digits that do not end before the point are cut at it. -/
theorem parts_of_long (hnonneg : 0 ≤ number.exponent)
    (hlong : number.exponent.toNat + 1 < number.digits.length) :
    number.Parts (number.digits.take (number.exponent.toNat + 1))
      (number.digits.drop (number.exponent.toNat + 1)) where
  whole d hd := h.inside d (List.mem_of_mem_take hd)
  fraction d hd := h.inside d (List.mem_of_mem_drop hd)
  nonempty := by
    obtain ⟨d, ds, hds, -⟩ := h.leading
    simp [hds]
  written := by
    have hpad : number.exponent.toNat + 1 -
        ((number.digits.take (number.exponent.toNat + 1)).map digitChar).length = 0 := by
      rw [List.length_map, List.length_take]
      omega
    have hne :
        ((number.digits.drop (number.exponent.toNat + 1)).map digitChar).isEmpty = false := by
      rw [List.isEmpty_eq_false_iff, ← List.length_pos_iff, List.length_map, List.length_drop]
      omega
    unfold positional
    dsimp only
    rw [if_neg (by omega), ← List.map_take, ← List.map_drop, List.rightpad, hpad, hne,
      List.replicate_zero, List.append_nil]
    rfl
  value := by
    have hwhole := h.whole
    refine ⟨0, ?_, ?_⟩
    · rw [List.take_append_drop]
      exact (Nat.mul_one _).symm
    · rw [List.length_drop]
      omega

theorem exists_parts : ∃ ws fs, number.Parts ws fs := by
  rcases Int.lt_or_le number.exponent 0 with hneg | hnonneg
  · exact ⟨_, _, h.parts_of_neg hneg⟩
  · rcases Nat.lt_or_ge (number.exponent.toNat + 1) number.digits.length with hlong | hshort
    · exact ⟨_, _, h.parts_of_long hnonneg hlong⟩
    · exact ⟨_, _, h.parts_of_short hnonneg hshort⟩

omit h in
theorem quanta_mul_pow (hplaces : number.places + k = count + 1074) :
    valueOf number.digits * Nat.pow 10 count * (one * quantaPerUnit) =
      number.quanta * Nat.pow 10 k := by
  rw [one_mul_quantaPerUnit, quanta]
  generalize 1074 = scale at hplaces
  rw [Nat.mul_assoc, Nat.mul_assoc, ← pow_ten_add, ← pow_ten_add, hplaces]

theorem ofText_positional (hunits : Representable units) :
    ofText (positional number) = .finite false units hunits := by
  obtain ⟨ws, fs, parts⟩ := h.exists_parts
  obtain ⟨count, hvalue, hplaces⟩ := parts.value
  rw [parts.written, ofText_pointed parts.nonempty parts.whole parts.fraction, hvalue,
    ofDecimal_eq (quanta_mul_pow hplaces)]
  exact nearest_eq_finite false h.reads hunits

end Scientific.Spells

end Rech.Binary64
