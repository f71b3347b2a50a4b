import Rech.Binary64.Arithmetic
import Rech.Proofs.Binary64.Styles

/-!
# Which double is shown

`display`, `inspect` and the number words of outlines are lawful ways to show
doubles, so each of them tells apart all doubles, `display` all but the two zeros. An
exponent is displayed where a magnitude is below 10^-4 or not below 10^21: from 10^16
up to below 10^21 all doubles are whole.
-/

namespace Rech.Binary64

open Text

variable {x y : Binary64}

-- ---------------------------------------------------------------------------
-- Whole numbers
-- ---------------------------------------------------------------------------

theorem whole?_eq_some_iff : whole? units = some n ↔ units = n * one ∧ n < Nat.pow 10 21 := by
  have hone := one_pos
  have hdiv := Nat.mod_add_div units one
  unfold whole?
  generalize Nat.pow 10 21 = bound
  generalize one = unit at hone hdiv
  split
  next h =>
    rw [Bool.and_eq_true, decide_eq_true_eq, decide_eq_true_eq] at h
    rw [Option.some.injEq]
    constructor
    · rintro rfl
      exact ⟨by rw [Nat.mul_comm]; omega, h.2⟩
    · rintro ⟨rfl, -⟩
      exact Nat.mul_div_cancel n hone
  next h =>
    refine iff_of_false (by simp) ?_
    rintro ⟨rfl, hn⟩
    simp [Nat.mul_div_cancel n hone, hn] at h

def magnitude (units : Nat) : List Char :=
  match whole? units with
  | some n => decimal n
  | none => (shortest units).text 1

theorem magnitude_of_whole? (h : whole? units = some n) : magnitude units = decimal n := by
  rw [magnitude, h]

theorem magnitude_of_not_whole (h : whole? units = none) :
    magnitude units = (shortest units).text 1 := by
  rw [magnitude, h]

theorem ne_zero_of_not_whole (h : whole? units = none) : units ≠ 0 := by
  rintro rfl
  have hzero : whole? 0 = some 0 :=
    whole?_eq_some_iff.2 ⟨(Nat.zero_mul _).symm, pow_ten_pos 21⟩
  rw [hzero] at h
  exact nomatch h

theorem form_magnitude (h : Representable units) : Form 1 units (magnitude units) := by
  cases hwhole : whole? units with
  | some n =>
    rw [magnitude_of_whole? hwhole, (whole?_eq_some_iff.1 hwhole).1]
    exact form_decimal n
  | none =>
    rw [magnitude_of_not_whole hwhole]
    exact (shortest_spells (ne_zero_of_not_whole hwhole) h.2).form_text 1

def inspectedMagnitude (units : Nat) : List Char :=
  if units = 0 then ['0', '.', '0'] else (shortest units).text 2

theorem form_inspectedMagnitude (h : Representable units) :
    Form 2 units (inspectedMagnitude units) := by
  unfold inspectedMagnitude
  split
  next hzero =>
    rw [hzero]
    exact form_zero
  next hne => exact (shortest_spells hne h.2).form_text 2

-- ---------------------------------------------------------------------------
-- Exponents
-- ---------------------------------------------------------------------------

theorem lt_one_iff (hscale : m + k = 1074) :
    units * Nat.pow 10 k < one ↔ units * quantaPerUnit < Nat.pow 10 m := by
  rw [← Nat.mul_lt_mul_right quantaPerUnit_pos, one_mul_quantaPerUnit, ← hscale, pow_ten_add,
    Nat.mul_right_comm, Nat.mul_lt_mul_right (pow_ten_pos k)]

theorem le_one_mul_iff (hscale : m = k + 1074) :
    Nat.pow 10 k * one ≤ units ↔ Nat.pow 10 m ≤ units * quantaPerUnit := by
  rw [← Nat.mul_le_mul_right_iff quantaPerUnit_pos, Nat.mul_assoc, one_mul_quantaPerUnit, hscale,
    pow_ten_add]

theorem one_dvd_of_large (h : step units ∣ units) (hlarge : Nat.pow 10 16 * one ≤ units) :
    one ∣ units := by
  have hone : one ∣ step (Nat.pow 10 16 * one) := by decide +kernel
  exact Nat.dvd_trans hone (Nat.dvd_trans (step_dvd_step hlarge) h)

theorem nearestUnits_small : one ≤ nearestUnits (Nat.pow 10 1070) quantaPerUnit * Nat.pow 10 4 := by
  decide +kernel

theorem one_dvd_nearestUnits_large : one ∣ nearestUnits (Nat.pow 10 1090) quantaPerUnit := by
  decide +kernel

section
variable {units : Nat} (h : step units ∣ units)
include h

theorem not_positional_of_small (hne : units ≠ 0) (hsmall : units * Nat.pow 10 4 < one) :
    ¬(shortest units).Positional := by
  have hquanta := (lt_one_iff (m := 1070) (k := 4) rfl).1 hsmall
  rcases exponent_shortest_lt hne h hquanta with hlt | rfl
  · unfold Scientific.Positional
    omega
  · exact absurd nearestUnits_small (Nat.not_le.2 hsmall)

theorem not_positional_of_large (hne : units ≠ 0) (hlarge : Nat.pow 10 21 * one ≤ units) :
    ¬(shortest units).Positional := by
  have hquanta := (le_one_mul_iff (m := 1095) (k := 21) rfl).1 hlarge
  have hle := le_exponent_shortest hne h hquanta
  unfold Scientific.Positional
  omega

theorem positional_of_fraction (hfraction : ¬one ∣ units) (hle : one ≤ units * Nat.pow 10 4) :
    (shortest units).Positional := by
  have hne : units ≠ 0 := fun hzero => hfraction (hzero ▸ Nat.dvd_zero one)
  have hlower := le_exponent_shortest hne h
    (Nat.not_lt.1 (mt (lt_one_iff (m := 1070) (k := 4) rfl).2 (Nat.not_lt.2 hle)))
  have hquanta := Nat.not_le.1
    (mt (le_one_mul_iff (m := 1090) (k := 16) rfl).2 (mt (one_dvd_of_large h) hfraction))
  rcases exponent_shortest_lt hne h hquanta with hlt | rfl
  · unfold Scientific.Positional
    omega
  · exact absurd one_dvd_nearestUnits_large hfraction

end

theorem e_not_mem_decimal (n : Nat) : 'e' ∉ decimal n := fun he =>
  forall_digitChars (P := (· ≠ 'e')) (by decide) (digits_lt_ten n) 'e' he rfl

theorem whole?_of_large (hlarge : Nat.pow 10 21 * one ≤ units) : whole? units = none := by
  rw [Option.eq_none_iff_forall_ne_some]
  intro n hn
  obtain ⟨hunits, hlt⟩ := whole?_eq_some_iff.1 hn
  rw [hunits, Nat.mul_le_mul_right_iff one_pos] at hlarge
  exact absurd hlarge (Nat.not_le.2 hlt)

theorem whole?_of_small (hne : units ≠ 0) (hsmall : units * Nat.pow 10 4 < one) :
    whole? units = none := by
  rw [Option.eq_none_iff_forall_ne_some]
  intro n hn
  have hunits := (whole?_eq_some_iff.1 hn).1
  have hpos : 0 < n := Nat.pos_of_ne_zero fun hzero =>
    hne (hunits.trans (by rw [hzero, Nat.zero_mul]))
  have hle := Nat.le_mul_of_pos_left one hpos
  rw [← hunits] at hle
  have hmul := Nat.le_mul_of_pos_right units (pow_ten_pos 4)
  exact absurd hsmall (Nat.not_lt.2 (Nat.le_trans hle hmul))

theorem not_one_dvd_of_whole?_eq_none (h : whole? units = none)
    (hlt : units < Nat.pow 10 21 * one) : ¬one ∣ units := by
  rintro ⟨n, hn⟩
  rw [Nat.mul_comm] at hn
  rw [hn, Nat.mul_lt_mul_right one_pos] at hlt
  rw [whole?_eq_some_iff.2 ⟨hn, hlt⟩] at h
  exact nomatch h

theorem e_mem_magnitude_iff_not_positional (h : step units ∣ units) :
    'e' ∈ magnitude units ↔ whole? units = none ∧ ¬(shortest units).Positional := by
  cases hwhole : whole? units with
  | some n =>
    rw [magnitude_of_whole? hwhole]
    exact iff_of_false (e_not_mem_decimal n) (by simp)
  | none =>
    rw [magnitude_of_not_whole hwhole,
      (shortest_spells (ne_zero_of_not_whole hwhole) h).e_mem_text_iff]
    exact ⟨fun hnot => ⟨rfl, hnot⟩, And.right⟩

theorem e_mem_magnitude_iff (h : step units ∣ units) : 'e' ∈ magnitude units ↔
    0 < units ∧ units * Nat.pow 10 4 < one ∨ Nat.pow 10 21 * one ≤ units := by
  rw [e_mem_magnitude_iff_not_positional h]
  constructor
  · rintro ⟨hwhole, hnot⟩
    have hne := ne_zero_of_not_whole hwhole
    by_contra hrange
    rw [not_or, not_and, Nat.not_le] at hrange
    have hle := Nat.not_lt.1 (hrange.1 (Nat.pos_of_ne_zero hne))
    exact hnot (positional_of_fraction h (not_one_dvd_of_whole?_eq_none hwhole hrange.2) hle)
  · rintro (⟨hpos, hsmall⟩ | hlarge)
    · have hne := Nat.ne_of_gt hpos
      exact ⟨whole?_of_small hne hsmall, not_positional_of_small h hne hsmall⟩
    · have hwhole := whole?_of_large hlarge
      exact ⟨hwhole, not_positional_of_large h (ne_zero_of_not_whole hwhole) hlarge⟩

theorem leftpad_one_decimal (n : Nat) : (decimal n).leftpad 1 '0' = decimal n := by
  have hpos := List.length_pos_iff.2 (digits_ne_nil n)
  have hpad : 1 - (decimal n).length = 0 := by
    rw [decimal, List.length_map]
    omega
  rw [List.leftpad, hpad, List.replicate_zero, List.nil_append]

theorem exists_decimal_eq_cons (hne : n ≠ 0) : ∃ c rest, decimal n = c :: rest ∧ c ≠ '0' := by
  obtain ⟨d, ds, hds, hd⟩ := exists_digits_eq_cons hne
  have hlt := digits_lt_ten n d (hds ▸ List.mem_cons_self)
  have hchar : ∀ d < 10, d ≠ 0 → digitChar d ≠ '0' := by decide
  exact ⟨digitChar d, ds.map digitChar, by rw [decimal, hds, List.map_cons], hchar d hlt hd⟩

/-- What is behind the letter is a sign and digits without a zero in front. -/
def EndsInExponent (text : List Char) : Prop :=
  ∃ front sign c rest, text = front ++ 'e' :: sign :: c :: rest ∧ 'e' ∉ front ∧
    (sign = '-' ∨ sign = '+') ∧ c ≠ '0' ∧ ∀ d ∈ c :: rest, isDigit d = true

theorem endsInExponent_magnitude (h : step units ∣ units) (he : 'e' ∈ magnitude units) :
    EndsInExponent (magnitude units) := by
  obtain ⟨hwhole, hnot⟩ := (e_mem_magnitude_iff_not_positional h).1 he
  have hspells := shortest_spells (ne_zero_of_not_whole hwhole) h
  have hne : (shortest units).exponent.natAbs ≠ 0 := by
    unfold Scientific.Positional at hnot
    omega
  obtain ⟨c, rest, hcons, hc⟩ := exists_decimal_eq_cons hne
  refine ⟨mantissa (shortest units).digits, exponentSign (shortest units).exponent, c, rest, ?_,
    e_not_mem_mantissa hspells.inside, ?_, hc, ?_⟩
  · rw [magnitude_of_not_whole hwhole, Scientific.text_of_not_positional hnot, withExponent_eq,
      leftpad_one_decimal, hcons]
  · unfold exponentSign
    split
    · exact .inl rfl
    · exact .inr rfl
  · rw [← hcons]
    exact isDigit_digitChars (digits_lt_ten _)

-- ---------------------------------------------------------------------------
-- The shown doubles
-- ---------------------------------------------------------------------------

def displayed : Style where
  width := 1
  nan := ['N', 'a', 'N']
  infinite := ['I', 'n', 'f', 'i', 'n', 'i', 't', 'y']
  magnitude := magnitude
  signedZero := false

def inspected : Style where
  width := 2
  nan := ['n', 'a', 'n']
  infinite := ['i', 'n', 'f']
  magnitude := inspectedMagnitude
  signedZero := true

theorem lawful_displayed : displayed.Lawful where
  nan := ⟨'N', _, rfl, by decide, by decide⟩
  infinite := ⟨'I', _, rfl, by decide, by decide⟩
  distinct := by decide
  magnitude _ := form_magnitude

theorem lawful_inspected : inspected.Lawful where
  nan := ⟨'n', _, rfl, by decide, by decide⟩
  infinite := ⟨'i', _, rfl, by decide, by decide⟩
  distinct := by decide
  magnitude _ := form_inspectedMagnitude

theorem toList_display (x : Binary64) : x.display.toList = displayed.shown x := by
  cases x with
  | nan => rfl
  | infinite negative => cases negative <;> rfl
  | finite negative units h =>
    rw [display, String.toList_ofList]
    simp only [Style.shown, Style.signed, Style.body, displayed, Bool.false_or]
    cases hwhole : whole? units with
    | some n =>
      have hunits := (whole?_eq_some_iff.1 hwhole).1
      have hzero : (n != 0) = (units != 0) := by
        rw [Bool.eq_iff_iff, bne_iff_ne, bne_iff_ne, hunits, Nat.mul_ne_zero_iff]
        exact (and_iff_left (Nat.ne_of_gt one_pos)).symm
      rw [magnitude_of_whole? hwhole, ← hzero]
    | none =>
      have hne : (units != 0) = true := bne_iff_ne.2 (ne_zero_of_not_whole hwhole)
      rw [magnitude_of_not_whole hwhole, hne, Bool.and_true]

theorem toList_inspect (x : Binary64) : x.inspect.toList = inspected.shown x := by
  cases x with
  | nan => rfl
  | infinite negative => cases negative <;> rfl
  | finite negative units h =>
    rw [inspect, String.toList_ofList]
    simp only [Style.shown, Style.signed, Style.body, inspected, Bool.true_or, Bool.and_true]
    rfl

theorem inspect_inj (h : inspect x = inspect y) : x = y := by
  have hshown := congrArg String.toList h
  rw [toList_inspect, toList_inspect] at hshown
  exact lawful_inspected.eq_of_shown rfl hshown

theorem equal_self_of_signed {m n : Bool} (hunits : Representable units)
    (h : (m && units != 0) = (n && units != 0)) :
    equal (.finite m units hunits) (.finite n units hunits) = true := by
  rw [equal, compares, position?, position?, decide_eq_true_eq]
  cases m <;> cases n <;> simp_all

theorem display_inj (h : display x = display y) : x.equal y = true ∨ x = .nan ∧ y = .nan := by
  have hshown := congrArg String.toList h
  rw [toList_display, toList_display] at hshown
  obtain ⟨habsolute, hsigned⟩ := lawful_displayed.shown_inj hshown
  rcases absolute_cases habsolute with
    ⟨rfl, rfl⟩ | ⟨m, n, rfl, rfl⟩ | ⟨m, n, units, hunits, rfl, rfl⟩
  · exact .inr ⟨rfl, rfl⟩
  · obtain rfl : m = n := hsigned
    exact .inl (decide_eq_true rfl)
  · exact .inl (equal_self_of_signed hunits hsigned)

theorem mem_withSign_iff (hne : c ≠ '-') : c ∈ withSign negative text ↔ c ∈ text := by
  cases negative with
  | false => exact Iff.rfl
  | true => exact List.mem_cons.trans (or_iff_right hne)

theorem e_mem_display_iff : 'e' ∈ x.display.toList ↔ ∃ negative units h,
    x = .finite negative units h ∧
      (0 < units ∧ units * Nat.pow 10 4 < one ∨ Nat.pow 10 21 * one ≤ units) := by
  rw [toList_display, Style.shown, mem_withSign_iff (by decide)]
  cases x with
  | nan => exact iff_of_false (by decide) (by simp)
  | infinite negative =>
    have hword : 'e' ∉ displayed.infinite := by decide
    exact iff_of_false hword (by simp)
  | finite negative units h =>
    refine (e_mem_magnitude_iff h.2).trans ⟨fun hrange => ⟨negative, units, h, rfl, hrange⟩, ?_⟩
    rintro ⟨m, u, hu, heq, hrange⟩
    obtain ⟨rfl, rfl⟩ := finite.inj heq
    exact hrange

theorem EndsInExponent.withSign (h : EndsInExponent text) (negative : Bool) :
    EndsInExponent (withSign negative text) := by
  cases negative with
  | false => exact h
  | true =>
    obtain ⟨front, sign, c, rest, rfl, hfront, hsign, hc, hdigits⟩ := h
    exact ⟨'-' :: front, sign, c, rest, rfl, by simpa using hfront, hsign, hc, hdigits⟩

/-- Texts tell doubles apart, and an exponent stands for magnitudes out of range. -/
theorem display_faithful (x y : Binary64) :
    (x.display = y.display → x.equal y = true ∨ x = .nan ∧ y = .nan) ∧
    ('e' ∈ x.display.toList ↔ ∃ negative units h, x = .finite negative units h ∧
      (0 < units ∧ units * Nat.pow 10 4 < one ∨ Nat.pow 10 21 * one ≤ units)) ∧
    ('e' ∈ x.display.toList → EndsInExponent x.display.toList) := by
  refine ⟨display_inj, e_mem_display_iff, fun he => ?_⟩
  obtain ⟨negative, units, h, rfl, -⟩ := e_mem_display_iff.1 he
  rw [toList_display, Style.shown] at he ⊢
  exact (endsInExponent_magnitude h.2 ((mem_withSign_iff (by decide)).1 he)).withSign _

end Rech.Binary64
