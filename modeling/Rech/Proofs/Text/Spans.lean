import Mathlib.Data.List.TakeWhile

/-!
# Texts that are taken apart again

A beginning whose characters all have a property is known from the whole text, if
what follows does not begin with such a character.
-/

namespace Rech.Text

/-- A property of the characters of a text is looked up in the text, not in the table of
all characters. -/
instance decidableForallMem (text : List Char) (p : Char → Prop) [DecidablePred p] :
    Decidable (∀ c ∈ text, p c) :=
  List.decidableBAll p text

variable {α : Type} {p : α → Bool} {xs ys rest others : List α}

theorem takeWhile_append (hxs : ∀ c ∈ xs, p c) (hrest : ∀ c ∈ rest.head?, p c = false) :
    (xs ++ rest).takeWhile p = xs := by
  rw [List.takeWhile_append_of_pos hxs]
  cases rest with
  | nil => rw [List.takeWhile_nil, List.append_nil]
  | cons c rest =>
    rw [List.takeWhile_cons_of_neg (by simp [hrest c rfl]), List.append_nil]

theorem append_inj_of_span (hxs : ∀ c ∈ xs, p c) (hys : ∀ c ∈ ys, p c)
    (hrest : ∀ c ∈ rest.head?, p c = false) (hothers : ∀ c ∈ others.head?, p c = false)
    (h : xs ++ rest = ys ++ others) : xs = ys ∧ rest = others := by
  have heq : xs = ys := by
    rw [← takeWhile_append hxs hrest, h, takeWhile_append hys hothers]
  subst heq
  exact ⟨rfl, List.append_cancel_left h⟩

theorem append_cons_inj [DecidableEq α] {c : α} (hxs : c ∉ xs) (hys : c ∉ ys)
    (h : xs ++ c :: rest = ys ++ c :: others) : xs = ys ∧ rest = others := by
  have hne {zs : List α} (hzs : c ∉ zs) : ∀ d ∈ zs, (d != c) = true := fun d hd =>
    bne_iff_ne.2 fun hdc => hzs (hdc ▸ hd)
  have hhead (zs : List α) : ∀ d ∈ (c :: zs).head?, (d != c) = false := by simp
  obtain ⟨hfront, hback⟩ := append_inj_of_span (hne hxs) (hne hys) (hhead _) (hhead _) h
  exact ⟨hfront, (List.cons.inj hback).2⟩

end Rech.Text
