import Rech.Text.Place

/-!
# The place behind a text

Advancing over a text from the start counts its newlines and the characters
behind the last of them.
-/

namespace Rech.Place

def behind (before : List Char) : Place where
  line := 1 + before.count '\n'
  column := 1 + (before.reverse.takeWhile (· != '\n')).length

theorem behind_nil : behind [] = .start := rfl

theorem after_behind (before : List Char) (c : Char) :
    (behind before).after (some c) = behind (before ++ [c]) := by
  unfold after
  split
  next h =>
    obtain rfl : c = '\n' := by simpa using h
    simp [behind, List.count_append]
    omega
  next h =>
    have hc : c ≠ '\n' := fun hc => h (hc ▸ rfl)
    simp [behind, List.count_append, hc]
    omega

theorem line_behind_le (before more : List Char) :
    (behind before).line ≤ (behind (before ++ more)).line := by
  simp only [behind, List.count_append]
  omega

def raise (lines : Int) (place : Place) : Place := ⟨place.line + lines, place.column⟩

/-- The number of lines that a text and a newline behind it take. -/
def linesOf (text : List Char) : Int := 1 + text.count '\n'

theorem behind_newline (text before : List Char) :
    behind (text ++ '\n' :: before) = (behind before).raise (linesOf text) := by
  have hcolumn : (before.reverse ++ '\n' :: text.reverse).takeWhile (· != '\n') =
      before.reverse.takeWhile (· != '\n') := by
    rw [List.takeWhile_append]
    split
    next h => simp [List.IsPrefix.eq_of_length (List.takeWhile_prefix _) h]
    next => rfl
  simp only [behind, raise, linesOf, List.count_append, List.count_cons_self, List.reverse_append,
    List.reverse_cons, List.append_assoc, List.singleton_append, hcolumn, Place.mk.injEq, and_true]
  omega

/-- A place with columns put before the first line. -/
def indent (columns : Nat) (place : Place) : Place :=
  ⟨place.line, if place.line = 1 then place.column + columns else place.column⟩

theorem after_indent {place : Place} (h : 1 ≤ place.line) (columns : Nat) (c : Char) :
    (place.indent columns).after (some c) = (place.after (some c)).indent columns := by
  by_cases hc : c = '\n'
  · have hline : place.line + 1 ≠ 1 := by omega
    simp [hc, after, indent, hline]
  · unfold after
    split
    next hnewline => exact absurd (Option.some.inj hnewline) hc
    next =>
      simp only [indent, Place.mk.injEq, true_and]
      split <;> omega

theorem one_le_line_behind (before : List Char) : 1 ≤ (behind before).line := by
  simp only [behind]
  omega

theorem behind_of_inLine (h : '\n' ∉ front) : behind front = start.indent front.length := by
  have hcolumn : front.reverse.takeWhile (· != '\n') = front.reverse := by
    rw [← List.append_nil front.reverse, List.takeWhile_append_of_pos]
    · simp
    · intro c hc
      simpa using ne_of_mem_of_not_mem (List.mem_reverse.1 hc) h
  simp [behind, start, indent, List.count_eq_zero.2 h, hcolumn]

theorem behind_inLine (h : '\n' ∉ front) (before : List Char) :
    behind (front ++ before) = (behind before).indent front.length := by
  obtain ⟨reversed, rfl⟩ : ∃ reversed : List Char, before = reversed.reverse :=
    ⟨before.reverse, by simp⟩
  induction reversed with
  | nil => rw [List.reverse_nil, List.append_nil, behind_nil, behind_of_inLine h]
  | cons c reversed ih =>
    rw [List.reverse_cons, ← List.append_assoc, ← after_behind, ih, ← after_behind,
      after_indent (one_le_line_behind _)]

end Rech.Place
