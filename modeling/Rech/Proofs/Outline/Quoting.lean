import Rech.Outline.Basic

/-!
# Quoted texts end where they end

A quoted text in front of others is known from the whole: a quote or a backslash
inside of it stands behind a backslash, so its closing quote is told from those, and
each escape is told from the next character.
-/

namespace Rech.Outline

open Text (hexDigit hexDigits)

def shortEscapes : List (Char × Char) :=
  [('"', '"'), ('\\', '\\'), ('\n', 'n'), ('\r', 'r'), ('\t', 't'), ('\x08', 'b'), ('\x0c', 'f')]

/-- A character as it is written between quotes. -/
inductive Escape : Char → List Char → Prop
  | short (listed : (c, letter) ∈ shortEscapes) : Escape c ['\\', letter]
  | long {c : Char} (control : c.toNat < 32) : Escape c ('\\' :: 'u' :: hexDigits 4 c.toNat)
  | plain (quote : c ≠ '"') (backslash : c ≠ '\\') : Escape c [c]

theorem escape_escapedChar (c : Char) : Escape c (escapedChar c) := by
  unfold escapedChar
  split
  next h =>
    rcases (by simpa using h : c = '"' ∨ c = '\\') with rfl | rfl
    · exact .short (by decide)
    · exact .short (by decide)
  next h =>
    have hplain : c ≠ '"' ∧ c ≠ '\\' := by simpa using h
    split
    next h => exact h ▸ .short (by decide)
    split
    next h => exact h ▸ .short (by decide)
    split
    next h => exact h ▸ .short (by decide)
    split
    next h => exact h ▸ .short (by decide)
    split
    next h => exact h ▸ .short (by decide)
    split
    next h => exact .long h
    next => exact .plain hplain.1 hplain.2

theorem fst_eq_of_letter : ∀ one ∈ shortEscapes, ∀ other ∈ shortEscapes, one.2 = other.2 →
    one.1 = other.1 := by
  decide

theorem letter_ne_u : ∀ one ∈ shortEscapes, one.2 ≠ 'u' := by decide

theorem length_hexDigits (width n : Nat) : (hexDigits width n).length = width := by
  induction width generalizing n with
  | zero => rfl
  | succ width ih => rw [hexDigits, List.length_append, ih, List.length_singleton]

theorem hexDigit_inj : ∀ m < 16, ∀ n < 16, hexDigit m = hexDigit n → m = n := by decide

theorem hexDigits_inj (hm : m < Nat.pow 16 width) (hn : n < Nat.pow 16 width)
    (h : hexDigits width m = hexDigits width n) : m = n := by
  induction width generalizing m n with
  | zero => simp only [Nat.pow_eq, Nat.pow_zero] at hm hn; omega
  | succ width ih =>
    simp only [Nat.pow_eq, Nat.pow_succ] at hm hn ih
    obtain ⟨hfront, hlast⟩ := List.append_inj' h rfl
    have hmod := hexDigit_inj _ (Nat.mod_lt m (by decide)) _ (Nat.mod_lt n (by decide))
      (List.cons.inj hlast).1
    have hdiv : m / 16 = n / 16 := ih (by omega) (by omega) hfront
    omega

theorem Escape.append_inj (h : Escape c span) (h' : Escape d other)
    (heq : span ++ rest = other ++ others) : c = d ∧ rest = others := by
  cases h with
  | short listed =>
    cases h' with
    | short listed' =>
      obtain ⟨hletter, hrest⟩ := List.cons.inj (List.cons.inj heq).2
      exact ⟨fst_eq_of_letter _ listed _ listed' hletter, hrest⟩
    | long =>
      exact absurd (List.cons.inj (List.cons.inj heq).2).1 (letter_ne_u _ listed)
    | plain _ backslash => exact absurd (List.cons.inj heq).1.symm backslash
  | long control =>
    cases h' with
    | short listed' =>
      exact absurd (List.cons.inj (List.cons.inj heq).2).1.symm (letter_ne_u _ listed')
    | long control' =>
      have hdigits := (List.cons.inj (List.cons.inj heq).2).2
      have hlength : (hexDigits 4 c.toNat).length = (hexDigits 4 d.toNat).length := by
        rw [length_hexDigits, length_hexDigits]
      obtain ⟨hcode, hrest⟩ := List.append_inj hdigits hlength
      have hlt {n : Nat} (h : n < 32) : n < Nat.pow 16 4 := Nat.lt_trans h (by decide)
      exact ⟨Char.toNat_inj.1 (hexDigits_inj (hlt control) (hlt control') hcode), hrest⟩
    | plain _ backslash => exact absurd (List.cons.inj heq).1.symm backslash
  | plain _ backslash =>
    cases h' with
    | short | long => exact absurd (List.cons.inj heq).1 backslash
    | plain => exact List.cons.inj heq

theorem Escape.ne_quote (h : Escape c span) (rest others : List Char) :
    span ++ rest ≠ '"' :: others := by
  cases h with
  | short | long => simp
  | plain quote => simp [quote]

theorem escaped_append_inj {xs ys : List Char}
    (h : xs.flatMap escapedChar ++ '"' :: rest = ys.flatMap escapedChar ++ '"' :: others) :
    xs = ys ∧ rest = others := by
  induction xs generalizing ys with
  | nil =>
    cases ys with
    | nil => exact ⟨rfl, (List.cons.inj h).2⟩
    | cons d ys =>
      rw [List.flatMap_cons, List.append_assoc] at h
      exact absurd h.symm ((escape_escapedChar d).ne_quote _ _)
  | cons c xs ih =>
    cases ys with
    | nil =>
      rw [List.flatMap_cons, List.append_assoc] at h
      exact absurd h ((escape_escapedChar c).ne_quote _ _)
    | cons d ys =>
      rw [List.flatMap_cons, List.flatMap_cons, List.append_assoc, List.append_assoc] at h
      obtain ⟨rfl, hothers⟩ := (escape_escapedChar c).append_inj (escape_escapedChar d) h
      obtain ⟨rfl, hrest⟩ := ih hothers
      exact ⟨rfl, hrest⟩

theorem quoted_append_inj {text other : String}
    (h : (quoted text).toList ++ rest = (quoted other).toList ++ others) :
    text = other ∧ rest = others := by
  simp only [quoted, String.toList_ofList, List.cons_append, List.append_assoc, List.nil_append,
    List.cons.injEq, true_and] at h
  obtain ⟨htext, hrest⟩ := escaped_append_inj h
  exact ⟨String.toList_injective htext, hrest⟩

end Rech.Outline
