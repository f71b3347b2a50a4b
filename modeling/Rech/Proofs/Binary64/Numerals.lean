import Mathlib.Data.Nat.Digits.Defs
import Rech.Binary64.Decimal
import Rech.Proofs.Binary64.Rational
import Rech.Proofs.Grammar.Vocabulary
import Rech.Proofs.Text.Digits
import Rech.Proofs.Text.Spans

/-!
# Numerals

A numeral is digits, digits with a point, or a point with digits. A text is read as the
longest numeral it begins with, and what follows is left out. Whether the numeral may go
on is known where its digits end, so two runs of digits give the longest one.
-/

namespace Rech.Binary64

open Text

inductive Numeral : List Char → List Char → List Char → Prop
  | whole (nonempty : ws ≠ []) (digits : ∀ c ∈ ws, isDigit c = true) : Numeral ws ws []
  | pointed (nonempty : ws ≠ []) (digits : ∀ c ∈ ws, isDigit c = true)
      (digits' : ∀ c ∈ fs, isDigit c = true) : Numeral (ws ++ '.' :: fs) ws fs
  | fraction (nonempty : fs ≠ []) (digits : ∀ c ∈ fs, isDigit c = true) :
      Numeral ('.' :: fs) [] fs

def digit (c : Char) : Nat := (digitValue? c).getD 0

/-- The rational number that digits before and behind a point stand for. The last digit
before the point counts ones, and the first one behind it tenths. -/
def numeralValue (ws fs : List Char) : ℚ :=
  Nat.ofDigits 10 (ws.reverse.map digit) + Nat.ofDigits 10⁻¹ (0 :: fs.map digit)

structure LongestNumeral (text numeral ws fs : List Char) : Prop where
  spells : Numeral numeral ws fs
  fits : numeral <+: text
  longest : ∀ other us gs, Numeral other us gs → other <+: text → other.length ≤ numeral.length

/-- What a text is read as. -/
inductive IsReading (text : List Char) : Binary64 → Prop
  | notNumber (noNumeral : ∀ numeral ws fs, Numeral numeral ws fs → ¬numeral <+: text) :
      IsReading text .nan
  | rounded (longest : LongestNumeral text numeral ws fs)
      (rounds : Rounds false (numeralValue ws fs) x) : IsReading text x

-- ---------------------------------------------------------------------------
-- Values
-- ---------------------------------------------------------------------------

theorem filterMap_digitValue? {cs : List Char} (h : ∀ c ∈ cs, isDigit c = true) :
    cs.filterMap digitValue? = cs.map digit := by
  rw [← List.filterMap_eq_map]
  refine List.filterMap_congr fun c hc => ?_
  obtain ⟨d, hd⟩ := Option.isSome_iff_exists.1 (h c hc)
  rw [hd, Function.comp_apply, digit, hd]
  rfl

theorem cast_valueOf_reverse (ds : List Nat) : (valueOf ds.reverse : ℚ) = Nat.ofDigits 10 ds := by
  induction ds with
  | nil => rfl
  | cons d ds ih =>
    rw [List.reverse_cons, valueOf_append_singleton, Nat.ofDigits, ← ih]
    push_cast
    ring

theorem cast_valueOf_div (ds : List Nat) :
    (valueOf ds / 10 ^ ds.length : ℚ) = Nat.ofDigits 10⁻¹ (0 :: ds) := by
  induction ds with
  | nil => simp [valueOf, Nat.ofDigits]
  | cons d ds ih =>
    have hcons : valueOf (d :: ds) = d * 10 ^ ds.length + valueOf ds := by
      have h := valueOf_append [d] ds
      rwa [List.singleton_append, Nat.pow_eq, show valueOf [d] = d by simp [valueOf]] at h
    have hpow : (10 : ℚ) ^ ds.length ≠ 0 := pow_ne_zero _ (by norm_num)
    rw [Nat.ofDigits, Nat.cast_zero, zero_add] at ih ⊢
    rw [Nat.ofDigits, ← ih, hcons, List.length_cons, pow_succ]
    push_cast
    field_simp

theorem numeralValue_eq_div (h : ∀ c ∈ ws ++ fs, isDigit c = true) :
    numeralValue ws fs =
      (valueOf ((ws ++ fs).filterMap digitValue?) : ℚ) / 10 ^ fs.length := by
  have hpow : (10 : ℚ) ^ fs.length ≠ 0 := pow_ne_zero _ (by norm_num)
  have hwhole := cast_valueOf_reverse (ws.reverse.map digit)
  have hfraction := cast_valueOf_div (fs.map digit)
  rw [← List.map_reverse, List.reverse_reverse] at hwhole
  rw [List.length_map] at hfraction
  rw [numeralValue, filterMap_digitValue? h, List.map_append, valueOf_append, ← hwhole,
    ← hfraction, List.length_map, Nat.pow_eq]
  push_cast
  rw [add_div, mul_div_cancel_right₀ _ hpow]

theorem rounds_ofDecimal (coefficient places : Nat) :
    Rounds false (coefficient / 10 ^ places) (ofDecimal coefficient places) := by
  have hpos : 0 < 10 ^ places := Nat.pow_pos (by decide)
  have h := rounds_nearest_mul_one false coefficient hpos
  rw [Nat.cast_pow] at h
  exact h

-- ---------------------------------------------------------------------------
-- The longest numeral
-- ---------------------------------------------------------------------------

theorem Numeral.digits (h : Numeral numeral ws fs) : ∀ c ∈ ws ++ fs, isDigit c = true := by
  cases h with
  | whole _ digits => rwa [List.append_nil]
  | pointed _ digits digits' => exact List.forall_mem_append.2 ⟨digits, digits'⟩
  | fraction _ digits => exact digits

theorem Numeral.form (h : Numeral numeral ws fs) :
    (numeral = ws ∧ fs = [] ∧ ws ≠ []) ∨ (numeral = ws ++ '.' :: fs ∧ (ws ≠ [] ∨ fs ≠ [])) := by
  cases h with
  | whole nonempty => exact .inl ⟨rfl, rfl, nonempty⟩
  | pointed nonempty => exact .inr ⟨rfl, .inl nonempty⟩
  | fraction nonempty => exact .inr ⟨rfl, .inr nonempty⟩

theorem numeral_of_point (h : ws ≠ [] ∨ fs ≠ []) (hws : ∀ c ∈ ws, isDigit c = true)
    (hfs : ∀ c ∈ fs, isDigit c = true) : Numeral (ws ++ '.' :: fs) ws fs := by
  by_cases hwhole : ws = []
  · subst hwhole
    exact .fraction (h.resolve_left (absurd rfl)) hfs
  · exact .pointed hwhole hws hfs

theorem not_isDigit_point : isDigit '.' = false := by decide

theorem ne_point_of_isDigit (h : isDigit c = true) : c ≠ '.' := by
  rintro rfl
  exact absurd h (Bool.eq_false_iff.1 not_isDigit_point)

theorem Numeral.point_not_mem (h : Numeral numeral ws fs) : '.' ∉ ws := fun hmem =>
  ne_point_of_isDigit (h.digits '.' (List.mem_append_left fs hmem)) rfl

theorem Numeral.unique (h : Numeral numeral ws fs) (h' : Numeral numeral us gs) :
    ws = us ∧ fs = gs := by
  rcases h.form with ⟨rfl, rfl, -⟩ | ⟨rfl, -⟩ <;> rcases h'.form with ⟨heq, rfl, -⟩ | ⟨heq, -⟩
  · exact ⟨heq, rfl⟩
  · exact absurd (by simp [heq]) h.point_not_mem
  · exact absurd (by simp [← heq]) h'.point_not_mem
  · exact append_cons_inj h.point_not_mem h'.point_not_mem heq

theorem Numeral.reach (h : Numeral numeral ws fs) (hfits : numeral <+: text) :
    (numeral <+: text.takeWhile isDigit ∧ text.takeWhile isDigit ≠ []) ∨
      ∃ rest, text.dropWhile isDigit = '.' :: rest ∧
        numeral <+: text.takeWhile isDigit ++ '.' :: rest.takeWhile isDigit ∧
        (text.takeWhile isDigit ≠ [] ∨ rest.takeWhile isDigit ≠ []) := by
  obtain ⟨more, rfl⟩ := hfits
  obtain ⟨hws, hfs⟩ := List.forall_mem_append.1 h.digits
  rcases h.form with ⟨rfl, rfl, hne⟩ | ⟨rfl, hne⟩
  · rw [List.takeWhile_append_of_pos hws]
    exact .inl ⟨List.prefix_append _ _, List.append_ne_nil_of_left_ne_nil hne _⟩
  · have hwhole : (ws ++ '.' :: (fs ++ more)).takeWhile isDigit = ws :=
      takeWhile_append hws (by simpa using not_isDigit_point)
    rw [List.append_assoc, List.cons_append, hwhole]
    refine .inr ⟨fs ++ more, ?_, ?_⟩
    · rw [List.dropWhile_append_of_pos hws,
        List.dropWhile_cons_of_neg (by simp [not_isDigit_point])]
    · rw [List.takeWhile_append_of_pos hfs]
      refine ⟨?_, hne.imp_right fun hfs => List.append_ne_nil_of_left_ne_nil hfs _⟩
      exact (List.prefix_append_right_inj _).2
        (List.cons_prefix_cons.2 ⟨rfl, List.prefix_append _ _⟩)

theorem LongestNumeral.unique (h : LongestNumeral text numeral ws fs)
    (h' : LongestNumeral text other us gs) : ws = us ∧ fs = gs := by
  have hlength := Nat.le_antisymm (h'.longest _ _ _ h.spells h.fits)
    (h.longest _ _ _ h'.spells h'.fits)
  obtain rfl := (List.prefix_of_prefix_length_le h.fits h'.fits hlength.le).eq_of_length hlength
  exact h.spells.unique h'.spells

theorem Numeral.longest (h : Numeral numeral ws fs) : LongestNumeral numeral numeral ws fs where
  spells := h
  fits := List.prefix_rfl
  longest _ _ _ _ hfits := hfits.length_le

-- ---------------------------------------------------------------------------
-- Reading
-- ---------------------------------------------------------------------------

theorem leadingNumber?_of_point (hrest : text.dropWhile isDigit = '.' :: rest) :
    leadingNumber? text =
      if text.takeWhile isDigit ≠ [] ∨ rest.takeWhile isDigit ≠ [] then
        some (text.takeWhile isDigit, rest.takeWhile isDigit)
      else none := by
  rw [leadingNumber?, hrest]
  split
  next others heq =>
    obtain rfl := (List.cons.inj heq).2
    generalize text.takeWhile isDigit = ws
    generalize rest.takeWhile isDigit = fs
    cases ws <;> cases fs <;> rfl
  next hno => exact absurd rfl (hno rest)

theorem leadingNumber?_of_noPoint (hrest : ∀ rest, text.dropWhile isDigit ≠ '.' :: rest) :
    leadingNumber? text =
      if text.takeWhile isDigit ≠ [] then some (text.takeWhile isDigit, []) else none := by
  rw [leadingNumber?]
  split
  next rest h => exact absurd h (hrest rest)
  next => split <;> simp_all

theorem digits_takeWhile (text : List Char) : ∀ c ∈ text.takeWhile isDigit, isDigit c = true :=
  fun _ => List.mem_takeWhile_imp

theorem longest_of_point (hrest : text.dropWhile isDigit = '.' :: rest)
    (hne : text.takeWhile isDigit ≠ [] ∨ rest.takeWhile isDigit ≠ []) :
    LongestNumeral text (text.takeWhile isDigit ++ '.' :: rest.takeWhile isDigit)
      (text.takeWhile isDigit) (rest.takeWhile isDigit) where
  spells := numeral_of_point hne (digits_takeWhile text) (digits_takeWhile rest)
  fits := by
    conv => rhs; rw [← List.takeWhile_append_dropWhile (p := isDigit) (l := text), hrest]
    exact (List.prefix_append_right_inj _).2
      (List.cons_prefix_cons.2 ⟨rfl, List.takeWhile_prefix _⟩)
  longest other us gs hother hfits := by
    rcases hother.reach hfits with ⟨hless, -⟩ | ⟨others, heq, hless, -⟩
    · exact hless.length_le.trans (List.prefix_append _ _).length_le
    · obtain rfl := (List.cons.inj (hrest.symm.trans heq)).2
      exact hless.length_le

theorem longest_of_noPoint (hrest : ∀ rest, text.dropWhile isDigit ≠ '.' :: rest)
    (hne : text.takeWhile isDigit ≠ []) :
    LongestNumeral text (text.takeWhile isDigit) (text.takeWhile isDigit) [] where
  spells := .whole hne (digits_takeWhile text)
  fits := List.takeWhile_prefix _
  longest other us gs hother hfits := by
    rcases hother.reach hfits with ⟨hless, -⟩ | ⟨others, heq, -⟩
    · exact hless.length_le
    · exact absurd heq (hrest others)

/-- The two runs of digits are those of the longest numeral, if there is one. -/
theorem leadingNumber?_longest (text : List Char) :
    (leadingNumber? text = none ∧ ∀ numeral ws fs, Numeral numeral ws fs → ¬numeral <+: text) ∨
      ∃ numeral ws fs, leadingNumber? text = some (ws, fs) ∧ LongestNumeral text numeral ws fs := by
  by_cases hpoint : ∃ rest, text.dropWhile isDigit = '.' :: rest
  · obtain ⟨rest, hrest⟩ := hpoint
    rw [leadingNumber?_of_point hrest]
    split
    next hne => exact .inr ⟨_, _, _, rfl, longest_of_point hrest hne⟩
    next hnone =>
      refine .inl ⟨rfl, fun numeral ws fs h hfits => hnone ?_⟩
      rcases h.reach hfits with ⟨-, hne⟩ | ⟨others, heq, -, hne⟩
      · exact .inl hne
      · obtain rfl := (List.cons.inj (hrest.symm.trans heq)).2
        exact hne
  · have hrest := not_exists.1 hpoint
    rw [leadingNumber?_of_noPoint hrest]
    split
    next hne => exact .inr ⟨_, _, _, rfl, longest_of_noPoint hrest hne⟩
    next hnone =>
      refine .inl ⟨rfl, fun numeral ws fs h hfits => ?_⟩
      rcases h.reach hfits with ⟨-, hne⟩ | ⟨others, heq, -⟩
      · exact hnone hne
      · exact hrest others heq

theorem isReading_ofText (text : List Char) : IsReading text (ofText text) := by
  rcases leadingNumber?_longest text with ⟨hnone, hno⟩ | ⟨numeral, ws, fs, hsome, longest⟩
  · rw [ofText, hnone]
    exact .notNumber hno
  · rw [ofText, hsome]
    refine .rounded longest ?_
    rw [numeralValue_eq_div longest.spells.digits]
    exact rounds_ofDecimal _ _

theorem IsReading.rounds (h : IsReading text x) (longest : LongestNumeral text numeral ws fs) :
    Rounds false (numeralValue ws fs) x := by
  cases h with
  | notNumber noNumeral => exact absurd longest.fits (noNumeral _ _ _ longest.spells)
  | rounded longest' rounds =>
    obtain ⟨rfl, rfl⟩ := longest.unique longest'
    exact rounds

theorem IsReading.unique (h : IsReading text x) (h' : IsReading text y) : x = y := by
  cases h with
  | notNumber noNumeral =>
    cases h' with
    | notNumber => rfl
    | rounded longest => exact absurd longest.fits (noNumeral _ _ _ longest.spells)
  | rounded longest rounds => exact rounds.unique (h'.rounds longest)

theorem IsReading.not_negative (h : IsReading text x) : x.negative? ≠ some true := by
  cases h with
  | notNumber => simp [negative?]
  | rounded _ rounds => cases rounds <;> simp [negative?]

theorem IsReading.eq_nan_iff (h : IsReading text x) :
    x = .nan ↔ ∀ numeral ws fs, Numeral numeral ws fs → ¬numeral <+: text := by
  cases h with
  | notNumber noNumeral => exact iff_of_true rfl noNumeral
  | rounded longest rounds =>
    refine iff_of_false ?_ fun hno => hno _ _ _ longest.spells longest.fits
    cases rounds <;> simp

-- ---------------------------------------------------------------------------
-- Tokens
-- ---------------------------------------------------------------------------

theorem Numeral.ofText_ne_nan (h : Numeral numeral ws fs) (hfits : numeral <+: text) :
    ofText text ≠ .nan := fun hnan =>
  (isReading_ofText text).eq_nan_iff.1 hnan _ _ _ h hfits

theorem point_or_isDigit (h : Token.isNumeric c = true) : c = '.' ∨ isDigit c = true := by
  simpa using Lexing.of_isNumeric h (fun c => c = '.' || isDigit c) (by decide)

theorem ofText_eq_nan_iff (hne : text ≠ []) (h : ∀ c ∈ text, Token.isNumeric c = true) :
    ofText text = .nan ↔ text = ['.'] ∨ ['.', '.'] <+: text := by
  obtain ⟨c, rest, rfl⟩ := List.exists_cons_of_ne_nil hne
  obtain ⟨hc, hrest⟩ := List.forall_mem_cons.1 h
  rcases point_or_isDigit hc with rfl | hc
  · cases rest with
    | nil => exact iff_of_true rfl (.inl rfl)
    | cons d rest =>
      rcases point_or_isDigit (List.forall_mem_cons.1 hrest).1 with rfl | hd
      · exact iff_of_true rfl (.inr (by simp))
      · have hnumeral : Numeral ['.', d] [] [d] := .fraction (by simp) (by simpa)
        refine iff_of_false (hnumeral.ofText_ne_nan (by simp)) ?_
        simpa using (ne_point_of_isDigit hd).symm
  · have hnumeral : Numeral [c] [c] [] := .whole (by simp) (by simpa)
    refine iff_of_false (hnumeral.ofText_ne_nan (by simp)) ?_
    have hpoint := ne_point_of_isDigit hc
    simp [hpoint, hpoint.symm]

/-- A text is read as its longest numeral, rounded once. Nothing behind the numeral
matters, and the texts of number tokens are numbers but for two points or a point alone. -/
theorem ofText_longest (text : List Char) :
    (∀ x, ofText text = x ↔ IsReading text x) ∧
    (ofText text).negative? ≠ some true ∧
    (∀ numeral ws fs, LongestNumeral text numeral ws fs → ofText text = ofText numeral) ∧
    ∀ source, Token.Word.In source ⟨.number, String.ofList text⟩ →
      (ofText text = .nan ↔ text = ['.'] ∨ ['.', '.'] <+: text) := by
  have h := isReading_ofText text
  refine ⟨fun x => ⟨fun heq => heq ▸ h, h.unique⟩, h.not_negative, fun numeral ws fs longest => ?_,
    fun source hword => ?_⟩
  · exact (h.rounds longest).unique ((isReading_ofText numeral).rounds longest.spells.longest)
  · have hnumeral := hword.isNumeral
    exact ofText_eq_nan_iff (by simpa using hnumeral.nonempty) (by simpa using hnumeral.inside)

theorem ofText_longest_twoPoints :
    Token.Word.In ['1', '.', '2', '.', '3'] ⟨.number, String.ofList ['1', '.', '2', '.', '3']⟩ ∧
    LongestNumeral ['1', '.', '2', '.', '3'] ['1', '.', '2'] ['1'] ['2'] ∧
    ofText ['1', '.', '2', '.', '3'] = ofText ['1', '.', '2'] ∧
    ofText ['1', '.', '2', '.', '3'] ≠ .nan := by
  obtain ⟨-, -, reads, tokens⟩ := ofText_longest ['1', '.', '2', '.', '3']
  have hrest : ['1', '.', '2', '.', '3'].dropWhile isDigit = '.' :: ['2', '.', '3'] := by
    decide
  have longest : LongestNumeral ['1', '.', '2', '.', '3'] ['1', '.', '2'] ['1'] ['2'] :=
    longest_of_point hrest (.inl (by decide))
  have word : Token.Word.In ['1', '.', '2', '.', '3']
      ⟨.number, String.ofList ['1', '.', '2', '.', '3']⟩ :=
    ⟨[⟨.number, "1.2.3", ⟨1, 1⟩⟩, ⟨.endOfFile, "\x00", ⟨1, 6⟩⟩], by decide +kernel, by decide⟩
  exact ⟨word, longest, reads _ _ _ longest, mt (tokens _ word).1 (by decide)⟩

end Rech.Binary64
