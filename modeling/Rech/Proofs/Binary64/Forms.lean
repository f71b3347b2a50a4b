import Rech.Proofs.Binary64.Reading
import Rech.Proofs.Text.Spans

/-!
# Written forms of magnitudes

Only an exponent form has the letter `e`, so a form is positional or not by its
text. A positional form means the magnitude by being read back; an exponent form is
taken apart at the letter, and its padding does not change the exponent's value.
-/

namespace Rech.Binary64

open Text

variable {number other : Scientific} {units : Nat}

-- ---------------------------------------------------------------------------
-- Exponent forms
-- ---------------------------------------------------------------------------

/-- The digits of an exponent form, with a point behind the first of several. -/
def mantissa (ds : List Nat) : List Char :=
  match ds.map digitChar with
  | [] => []
  | [c] => [c]
  | c :: rest => c :: '.' :: rest

def exponentSign (exponent : Int) : Char := if exponent < 0 then '-' else '+'

theorem withExponent_eq (width : Nat) (number : Scientific) :
    withExponent width number = mantissa number.digits ++ 'e' :: exponentSign number.exponent ::
      (decimal number.exponent.natAbs).leftpad width '0' := rfl

theorem forall_mem_mantissa {P : Char → Prop} (hpoint : P '.') (hP : ∀ d < 10, P (digitChar d))
    (h : ∀ d ∈ ds, d < 10) : ∀ c ∈ mantissa ds, P c := by
  have hdigits := forall_digitChars hP h
  intro c hc
  unfold mantissa at hc
  split at hc
  next => exact absurd hc List.not_mem_nil
  next heq => exact hdigits c (heq ▸ hc)
  next first rest hrest heq =>
    rw [heq] at hdigits
    rcases List.mem_cons.1 hc with rfl | hc
    · exact hdigits _ List.mem_cons_self
    · rcases List.mem_cons.1 hc with rfl | hc
      · exact hpoint
      · exact hdigits c (List.mem_cons_of_mem _ hc)

theorem filterMap_mantissa (h : ∀ d ∈ ds, d < 10) : (mantissa ds).filterMap digitValue? = ds := by
  have hpoint : digitValue? '.' = none := by decide
  refine Eq.trans ?_ (filterMap_digitChar h)
  unfold mantissa
  split
  next heq => rw [heq]
  next heq => rw [heq]
  next first rest hrest heq => simp [heq, List.filterMap_cons, hpoint]

theorem e_not_mem_mantissa (h : ∀ d ∈ ds, d < 10) : 'e' ∉ mantissa ds := fun hmem =>
  forall_mem_mantissa (P := (· ≠ 'e')) (by decide) (by decide) h 'e' hmem rfl

theorem exponent_eq_of_sign {a b : Int} (hsign : exponentSign a = exponentSign b)
    (habs : a.natAbs = b.natAbs) : a = b := by
  unfold exponentSign at hsign
  split at hsign <;> split at hsign <;> first | omega | exact absurd hsign (by decide)

theorem valueOf_leftpad_decimal (width n : Nat) :
    valueOf (((decimal n).leftpad width '0').filterMap digitValue?) = n := by
  have hzero : digitValue? '0' = some 0 := by decide
  rw [List.leftpad, List.filterMap_append, List.filterMap_replicate_of_some hzero,
    valueOf_zeros_append, valueOf_filterMap_decimal]

theorem withExponent_inj (h : ∀ d ∈ number.digits, d < 10) (h' : ∀ d ∈ other.digits, d < 10)
    (heq : withExponent width number = withExponent width other) : number = other := by
  rw [withExponent_eq, withExponent_eq] at heq
  obtain ⟨hfront, hback⟩ := append_cons_inj (e_not_mem_mantissa h) (e_not_mem_mantissa h') heq
  obtain ⟨hsign, hpadded⟩ := List.cons.inj hback
  have hdigits : number.digits = other.digits := by
    rw [← filterMap_mantissa h, hfront, filterMap_mantissa h']
  have habs : number.exponent.natAbs = other.exponent.natAbs := by
    rw [← valueOf_leftpad_decimal width number.exponent.natAbs, hpadded, valueOf_leftpad_decimal]
  have hexponent := exponent_eq_of_sign hsign habs
  obtain ⟨ds, e⟩ := number
  obtain ⟨ds', e'⟩ := other
  obtain rfl : ds = ds' := hdigits
  obtain rfl : e = e' := hexponent
  rfl

-- ---------------------------------------------------------------------------
-- Both forms
-- ---------------------------------------------------------------------------

def Scientific.Positional (number : Scientific) : Prop :=
  -4 ≤ number.exponent ∧ number.exponent < 16

instance : DecidablePred Scientific.Positional := fun number =>
  inferInstanceAs (Decidable (-4 ≤ number.exponent ∧ number.exponent < 16))

theorem Scientific.text_of_positional (h : number.Positional) (width : Nat) :
    number.text width = Binary64.positional number := if_pos h

theorem Scientific.text_of_not_positional (h : ¬number.Positional) (width : Nat) :
    number.text width = withExponent width number := if_neg h

namespace Scientific.Spells

theorem e_not_mem_positional (h : number.Spells units) : 'e' ∉ positional number := by
  obtain ⟨ws, fs, parts⟩ := h.exists_parts
  have hwhole := forall_digitChars (P := (· ≠ 'e')) (by decide) parts.whole
  have hfraction := forall_digitChars (P := (· ≠ 'e')) (by decide) parts.fraction
  rw [parts.written, List.mem_append, List.mem_cons]
  rintro (hmem | hpoint | hmem)
  · exact hwhole 'e' hmem rfl
  · exact absurd hpoint (by decide)
  · exact hfraction 'e' hmem rfl

theorem e_mem_text_iff (h : number.Spells units) :
    'e' ∈ number.text width ↔ ¬number.Positional := by
  by_cases hpositional : number.Positional
  · rw [text_of_positional hpositional]
    exact iff_of_false h.e_not_mem_positional (not_not_intro hpositional)
  · rw [text_of_not_positional hpositional, withExponent_eq]
    exact iff_of_true (by simp) hpositional

theorem point_or_e_mem_text (h : number.Spells units) (width : Nat) :
    '.' ∈ number.text width ∨ 'e' ∈ number.text width := by
  by_cases hpositional : number.Positional
  · obtain ⟨ws, fs, parts⟩ := h.exists_parts
    rw [text_of_positional hpositional, parts.written]
    exact .inl (by simp)
  · exact .inr (h.e_mem_text_iff.2 hpositional)

end Scientific.Spells

end Rech.Binary64
