import Rech.Error
import Rech.Text.LineEnding
import Rech.Value

/-!
# Texts that stay in their line

A text with a newline behind each of its lines gives these lines back, if none
of them has a newline inside. Numbers are written without one, and so is every
value that is no string.
-/

namespace Rech

namespace Text

def InLine (text : String) : Prop := '\n' ∉ text.toList

instance : DecidablePred InLine := fun text => inferInstanceAs (Decidable ('\n' ∉ text.toList))

@[simp] theorem inLine_append : InLine (a ++ b) ↔ InLine a ∧ InLine b := by
  simp [InLine]

@[simp] theorem inLine_ofList : InLine (String.ofList text) ↔ '\n' ∉ text := by
  simp [InLine]

-- ---------------------------------------------------------------------------
-- Lines
-- ---------------------------------------------------------------------------

/-- Lines as they are printed, each with its newline. -/
def printed (shown : List String) : String := String.join (shown.map (· ++ "\n"))

theorem printed_append (shown others : List String) :
    printed (shown ++ others) = printed shown ++ printed others := by
  simp [printed]

theorem lines_append_newline (h : '\n' ∉ line) (rest : List Char) :
    lines (line ++ '\n' :: rest) = line :: lines rest := by
  induction line with
  | nil => simp [lines]
  | cons c line ih =>
    rw [List.mem_cons, not_or] at h
    rw [List.cons_append, lines, if_neg (Ne.symm h.1), ih h.2]

theorem lines_printed (h : ∀ line ∈ shown, InLine line) :
    lines (printed shown).toList = shown.map String.toList := by
  induction shown with
  | nil => rfl
  | cons line others ih =>
    obtain ⟨hline, hothers⟩ := List.forall_mem_cons.1 h
    have hcons : (printed (line :: others)).toList =
        line.toList ++ '\n' :: (printed others).toList := by
      simp [printed, String.join_cons]
    rw [hcons, lines_append_newline hline, ih hothers, List.map_cons]

-- ---------------------------------------------------------------------------
-- Numbers
-- ---------------------------------------------------------------------------

theorem inLine_natRepr (n : Nat) : InLine n.repr := by
  rw [Nat.repr, inLine_ofList]
  intro h
  exact absurd (Nat.isDigit_of_mem_toDigits (by decide) (by decide) h) (by decide)

theorem inLine_intRepr (n : Int) : InLine (toString n) := by
  cases n with
  | ofNat n => exact inLine_natRepr n
  | negSucc n => exact inLine_append.2 ⟨by decide, inLine_natRepr (n + 1)⟩

theorem inLine_numberOrNone (line : Option Int) : InLine (numberOrNone line) := by
  cases line with
  | none => decide
  | some n => exact inLine_intRepr n

theorem digitChar_ne_newline (d : Nat) : digitChar d ≠ '\n' := by
  intro h
  by_cases valid : (0x30 + d).isValidChar
  · have hchar : digitChar d = Char.ofNatAux (0x30 + d) valid := dif_pos valid
    have hcode : 0x30 + d = 10 := congrArg Char.toNat (hchar.symm.trans h)
    omega
  · have hchar : digitChar d = Char.ofNat 0 := dif_neg valid
    exact absurd (hchar.symm.trans h) (by decide)

theorem newline_not_mem_digitChars (ds : List Nat) : '\n' ∉ ds.map digitChar := by
  simp [digitChar_ne_newline]

end Text

namespace Binary64

open Text (newline_not_mem_digitChars)

theorem newline_not_mem_withSign (h : '\n' ∉ text) (negative : Bool) :
    '\n' ∉ withSign negative text := by
  cases negative <;> simpa [withSign] using h

theorem newline_not_mem_positional (number : Scientific) : '\n' ∉ positional number := by
  have hdigits := newline_not_mem_digitChars number.digits
  unfold positional
  generalize number.digits.map Text.digitChar = chars at hdigits
  dsimp only
  split
  · simp [hdigits]
  · have htake (count : Nat) : '\n' ∉ chars.take count := mt List.mem_of_mem_take hdigits
    have hdrop (count : Nat) : '\n' ∉ chars.drop count := mt List.mem_of_mem_drop hdigits
    split <;> simp [List.rightpad, htake, hdrop]

theorem newline_not_mem_withExponent (width : Nat) (number : Scientific) :
    '\n' ∉ withExponent width number := by
  have hdigits := newline_not_mem_digitChars number.digits
  have hexponent : '\n' ∉ (Text.decimal number.exponent.natAbs).leftpad width '0' := by
    simp [List.leftpad, Text.decimal, newline_not_mem_digitChars]
  have hsign : '\n' ≠ if number.exponent < 0 then '-' else '+' := by
    split <;> decide
  unfold withExponent
  generalize number.digits.map Text.digitChar = chars at hdigits
  rw [List.mem_append, List.mem_cons, List.mem_cons, not_or, not_or, not_or]
  refine ⟨?_, by decide, hsign, hexponent⟩
  rcases chars with _ | ⟨c, _ | ⟨d, rest⟩⟩
  · exact hdigits
  · exact hdigits
  · simpa using hdigits

theorem inLine_display (x : Binary64) : Text.InLine x.display := by
  cases x with
  | nan => decide
  | infinite negative => cases negative <;> decide
  | finite negative units representable =>
    rw [display, Text.inLine_ofList]
    split
    · exact newline_not_mem_withSign (newline_not_mem_digitChars _) _
    · refine newline_not_mem_withSign ?_ _
      rw [Scientific.text]
      split
      · exact newline_not_mem_positional _
      · exact newline_not_mem_withExponent _ _

end Binary64

theorem Value.inLine_display {value : Value} (h : ∀ text, value = .string text → Text.InLine text) :
    Text.InLine value.display := by
  cases value with
  | number x => exact x.inLine_display
  | string text => exact h text rfl
  | boolean flag => cases flag <;> exact Text.inLine_ofList.2 (by decide)
  | null | unset => exact Text.inLine_ofList.2 (by decide)

end Rech
