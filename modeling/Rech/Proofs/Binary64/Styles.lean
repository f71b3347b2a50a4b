import Rech.Proofs.Binary64.Forms

/-!
# Ways to show doubles

A double is shown as a sign and behind it a word or the form of its magnitude.
A way to show doubles is lawful if its words begin like no number and each of its
forms is read back or has an exponent. Then no two magnitudes are shown alike.
-/

namespace Rech.Binary64

open Text

-- ---------------------------------------------------------------------------
-- Forms of one magnitude
-- ---------------------------------------------------------------------------

def positionalChars : List Char := '.' :: (List.range 10).map digitChar

def numberChars : List Char := 'e' :: '+' :: '-' :: positionalChars

theorem digitChar_mem_positionalChars : ∀ d < 10, digitChar d ∈ positionalChars := by decide

theorem digitChar_mem_numberChars : ∀ d < 10, digitChar d ∈ numberChars := by decide

structure Form (width units : Nat) (text : List Char) : Prop where
  leading : ∃ c rest, text = c :: rest ∧ isDigit c = true
  inside : ∀ c ∈ text, c ∈ numberChars
  positional : 'e' ∉ text → ∀ c ∈ text, c ∈ positionalChars
  reads : 'e' ∉ text → ∀ h, ofText text = .finite false units h
  exponential : 'e' ∈ text → ∃ number : Scientific, number.Spells units ∧
    text = withExponent width number

theorem Form.unique (h : Form width m text) (h' : Form width n text) (hm : Representable m)
    (hn : Representable n) : m = n := by
  by_cases he : 'e' ∈ text
  · obtain ⟨number, hnumber, rfl⟩ := h.exponential he
    obtain ⟨other, hother, heq⟩ := h'.exponential he
    obtain rfl := withExponent_inj hnumber.inside hother.inside heq
    exact hnumber.unique hother
  · exact (finite.inj ((h.reads he hm).symm.trans (h'.reads he hn))).2

theorem leading_digitChars (hne : ds ≠ []) (h : ∀ d ∈ ds, d < 10) (rest : List Char) :
    ∃ c others, ds.map digitChar ++ rest = c :: others ∧ isDigit c = true := by
  obtain ⟨d, others, rfl⟩ := List.exists_cons_of_ne_nil hne
  exact ⟨_, _, rfl, isDigit_digitChars h _ List.mem_cons_self⟩

theorem leading_mantissa (hne : ds ≠ []) (h : ∀ d ∈ ds, d < 10) (rest : List Char) :
    ∃ c others, mantissa ds ++ rest = c :: others ∧ isDigit c = true := by
  obtain ⟨d, others, rfl⟩ := List.exists_cons_of_ne_nil hne
  have hdigit := isDigit_digitChars h _ List.mem_cons_self
  cases others with
  | nil => exact ⟨_, _, rfl, hdigit⟩
  | cons => exact ⟨_, _, rfl, hdigit⟩

theorem form_decimal (n : Nat) : Form width (n * one) (decimal n) := by
  have hdigits := digits_lt_ten n
  have he : 'e' ∉ decimal n := fun hmem =>
    forall_digitChars (P := (· ≠ 'e')) (by decide) hdigits 'e' hmem rfl
  refine ⟨?_, forall_digitChars digitChar_mem_numberChars hdigits,
    fun _ => forall_digitChars digitChar_mem_positionalChars hdigits, fun _ h => ofText_decimal h,
    fun hmem => absurd hmem he⟩
  rw [decimal, ← List.append_nil ((digits n).map digitChar)]
  exact leading_digitChars (digits_ne_nil n) hdigits []

theorem form_zero : Form width 0 ['0', '.', '0'] where
  leading := ⟨'0', _, rfl, by decide⟩
  inside := by decide
  positional _ := by decide
  reads _ h := by
    have hread := @ofText_pointed [0] [0] (by decide) (by decide) (by decide)
    exact hread.trans (ofDecimal_zero 1)
  exponential he := absurd he (by decide)

theorem mem_numberChars_withExponent (width : Nat) {number : Scientific}
    (h : ∀ d ∈ number.digits, d < 10) : ∀ c ∈ withExponent width number, c ∈ numberChars := by
  have hsign : exponentSign number.exponent ∈ numberChars := by
    unfold exponentSign
    split <;> decide
  have hpadded : ∀ c ∈ (decimal number.exponent.natAbs).leftpad width '0', c ∈ numberChars := by
    rw [List.leftpad]
    refine List.forall_mem_append.2 ⟨fun c hc => ?_, ?_⟩
    · rw [List.eq_of_mem_replicate hc]
      decide
    · exact forall_digitChars digitChar_mem_numberChars (digits_lt_ten _)
  rw [withExponent_eq]
  exact List.forall_mem_append.2
    ⟨forall_mem_mantissa (by decide) digitChar_mem_numberChars h,
      List.forall_mem_cons.2 ⟨by decide, List.forall_mem_cons.2 ⟨hsign, hpadded⟩⟩⟩

theorem Scientific.Parts.mem_positionalChars {number : Scientific} (parts : number.Parts ws fs) :
    ∀ c ∈ Binary64.positional number, c ∈ positionalChars := by
  rw [parts.written]
  exact List.forall_mem_append.2 ⟨forall_digitChars digitChar_mem_positionalChars parts.whole,
    List.forall_mem_cons.2
      ⟨by decide, forall_digitChars digitChar_mem_positionalChars parts.fraction⟩⟩

namespace Scientific.Spells

theorem form_positional {number : Scientific} (h : number.Spells units) :
    Form width units (Binary64.positional number) := by
  obtain ⟨ws, fs, parts⟩ := h.exists_parts
  have hchars := parts.mem_positionalChars
  refine ⟨?_, fun c hc => List.mem_append_right ['e', '+', '-'] (hchars c hc), fun _ => hchars,
    fun _ hunits => h.ofText_positional hunits, fun he => absurd he h.e_not_mem_positional⟩
  rw [parts.written]
  exact leading_digitChars parts.nonempty parts.whole _

theorem form_withExponent {number : Scientific} (h : number.Spells units) :
    Form width units (withExponent width number) := by
  have he : 'e' ∈ withExponent width number := by simp [withExponent_eq]
  refine ⟨?_, mem_numberChars_withExponent width h.inside, fun hno => absurd he hno,
    fun hno => absurd he hno, fun _ => ⟨number, h, rfl⟩⟩
  obtain ⟨d, ds, hds, -⟩ := h.leading
  rw [withExponent_eq]
  exact leading_mantissa (by simp [hds]) h.inside _

theorem form_text {number : Scientific} (h : number.Spells units) (width : Nat) :
    Form width units (number.text width) := by
  by_cases hpositional : number.Positional
  · rw [text_of_positional hpositional]
    exact h.form_positional
  · rw [text_of_not_positional hpositional]
    exact h.form_withExponent

end Scientific.Spells

-- ---------------------------------------------------------------------------
-- Words and signs
-- ---------------------------------------------------------------------------

def absolute : Binary64 → Binary64
  | .nan => .nan
  | .infinite _ => .infinite false
  | .finite _ units h => .finite false units h

theorem absolute_cases {x y : Binary64} (h : x.absolute = y.absolute) : x = .nan ∧ y = .nan ∨
    (∃ m n, x = .infinite m ∧ y = .infinite n) ∨
    ∃ m n units, ∃ hunits : Representable units, x = .finite m units hunits ∧
      y = .finite n units hunits := by
  cases x with
  | nan =>
    cases y with
    | nan => exact .inl ⟨rfl, rfl⟩
    | infinite n => exact nomatch h
    | finite n v hv => exact nomatch h
  | infinite m =>
    cases y with
    | nan => exact nomatch h
    | infinite n => exact .inr (.inl ⟨m, n, rfl, rfl⟩)
    | finite n v hv => exact nomatch h
  | finite m u hu =>
    cases y with
    | nan => exact nomatch h
    | infinite n => exact nomatch h
    | finite n v hv =>
      obtain rfl : u = v := (finite.inj h).2
      exact .inr (.inr ⟨m, n, u, hu, rfl, rfl⟩)

structure Style where
  width : Nat
  nan : List Char
  infinite : List Char
  magnitude : Nat → List Char
  signedZero : Bool

namespace Style

def body (style : Style) : Binary64 → List Char
  | .nan => style.nan
  | .infinite _ => style.infinite
  | .finite _ units _ => style.magnitude units

def signed (style : Style) : Binary64 → Bool
  | .nan => false
  | .infinite negative => negative
  | .finite negative units _ => negative && (style.signedZero || units != 0)

def shown (style : Style) (x : Binary64) : List Char := withSign (style.signed x) (style.body x)

def Wordlike (text : List Char) : Prop :=
  ∃ c rest, text = c :: rest ∧ isDigit c = false ∧ c ≠ '-'

structure Lawful (style : Style) : Prop where
  nan : Wordlike style.nan
  infinite : Wordlike style.infinite
  distinct : style.nan ≠ style.infinite
  magnitude : ∀ units, Representable units → Form style.width units (style.magnitude units)

end Style

theorem Form.ne_wordlike (h : Form width units text) (hword : Style.Wordlike word) :
    text ≠ word := by
  rintro rfl
  obtain ⟨c, rest, rfl, hc, -⟩ := hword
  obtain ⟨_, _, heq, hdigit⟩ := h.leading
  rw [List.cons.injEq] at heq
  rw [heq.1, hdigit] at hc
  exact absurd hc (by decide)

theorem withSign_inj (htext : ∀ rest, text ≠ '-' :: rest) (hother : ∀ rest, other ≠ '-' :: rest)
    (h : withSign a text = withSign b other) : a = b ∧ text = other := by
  cases a <;> cases b
  · exact ⟨rfl, h⟩
  · exact absurd h (htext other)
  · exact absurd h.symm (hother text)
  · exact ⟨rfl, (List.cons.inj h).2⟩

namespace Style.Lawful

variable {style : Style} (lawful : style.Lawful)
include lawful

theorem body_ne_minus (x : Binary64) (rest : List Char) : style.body x ≠ '-' :: rest := by
  have hword {text : List Char} (h : Wordlike text) : text ≠ '-' :: rest := by
    rintro rfl
    obtain ⟨c, _, heq, -, hc⟩ := h
    exact hc (List.cons.inj heq).1.symm
  cases x with
  | nan => exact hword lawful.nan
  | infinite => exact hword lawful.infinite
  | finite negative units h =>
    intro heq
    obtain ⟨c, others, hcons, hdigit⟩ := (lawful.magnitude units h).leading
    have hminus : style.magnitude units = '-' :: rest := heq
    rw [hcons, List.cons.injEq] at hminus
    rw [hminus.1] at hdigit
    exact absurd hdigit (by decide)

theorem absolute_eq (h : style.body x = style.body y) : x.absolute = y.absolute := by
  cases x with
  | nan =>
    cases y with
    | nan => rfl
    | infinite => exact absurd h lawful.distinct
    | finite n v hv => exact absurd h.symm ((lawful.magnitude v hv).ne_wordlike lawful.nan)
  | infinite m =>
    cases y with
    | nan => exact absurd h.symm lawful.distinct
    | infinite => rfl
    | finite n v hv => exact absurd h.symm ((lawful.magnitude v hv).ne_wordlike lawful.infinite)
  | finite m u hu =>
    have hform := lawful.magnitude u hu
    cases y with
    | nan => exact absurd h (hform.ne_wordlike lawful.nan)
    | infinite => exact absurd h (hform.ne_wordlike lawful.infinite)
    | finite n v hv =>
      have heq : style.magnitude u = style.magnitude v := h
      obtain rfl := hform.unique (heq ▸ lawful.magnitude v hv) hu hv
      rfl

theorem mem_shown (hc : c ∈ style.shown x) :
    c ∈ numberChars ∨ c ∈ style.nan ∨ c ∈ style.infinite := by
  have hbody : c ∈ style.body x → c ∈ numberChars ∨ c ∈ style.nan ∨ c ∈ style.infinite := by
    cases x with
    | nan => exact fun h => .inr (.inl h)
    | infinite => exact fun h => .inr (.inr h)
    | finite negative units h => exact fun hmem => .inl ((lawful.magnitude units h).inside c hmem)
  unfold shown withSign at hc
  split at hc
  next =>
    rcases List.mem_cons.1 hc with rfl | hc
    · exact .inl (by decide)
    · exact hbody hc
  next => exact hbody hc

/-- Doubles that are shown alike are the same, except for the sign of a zero. -/
theorem shown_inj (h : style.shown x = style.shown y) :
    x.absolute = y.absolute ∧ style.signed x = style.signed y := by
  obtain ⟨hsigned, hbody⟩ := withSign_inj (lawful.body_ne_minus x) (lawful.body_ne_minus y) h
  exact ⟨lawful.absolute_eq hbody, hsigned⟩

theorem eq_of_shown (hzero : style.signedZero = true) (h : style.shown x = style.shown y) :
    x = y := by
  obtain ⟨habsolute, hsigned⟩ := lawful.shown_inj h
  rcases absolute_cases habsolute with
    ⟨rfl, rfl⟩ | ⟨m, n, rfl, rfl⟩ | ⟨m, n, units, hunits, rfl, rfl⟩
  · rfl
  · exact congrArg Binary64.infinite hsigned
  · simpa [signed, hzero] using hsigned

end Style.Lawful

end Rech.Binary64
