/-!
# Decimal notation of natural numbers

Digits stand most significant first. `valueOf_digits` says that a number's
digits have the number as their value.
-/

namespace Rech.Text

def digits (n : Nat) : List Nat :=
  if n < 10 then [n] else digits (n / 10) ++ [n % 10]

def valueOf (ds : List Nat) : Nat :=
  ds.foldl (fun value d => 10 * value + d) 0

theorem valueOf_append_singleton (ds : List Nat) (d : Nat) :
    valueOf (ds ++ [d]) = 10 * valueOf ds + d := by
  simp [valueOf]

theorem valueOf_digits (n : Nat) : valueOf (digits n) = n := by
  fun_induction digits n with
  | case1 n h => simp [valueOf]
  | case2 n h ih => rw [valueOf_append_singleton, ih]; omega

theorem digits_lt_ten (n : Nat) : ∀ d ∈ digits n, d < 10 := by
  fun_induction digits n with
  | case1 n h => simpa using h
  | case2 n h ih =>
    intro d hd
    rcases List.mem_append.1 hd with hd | hd
    · exact ih d hd
    · rw [List.mem_singleton.1 hd]
      omega

/-- How many digits a number has, without listing them. -/
def digitCount (n : Nat) : Nat :=
  if n < 10 then 1 else digitCount (n / 10) + 1

theorem length_digits (n : Nat) : (digits n).length = digitCount n := by
  fun_induction digits n with
  | case1 n h => simp [digitCount, h]
  | case2 n h ih => rw [digitCount]; simp [h, ih]

def digitChar (d : Nat) : Char := Char.ofNat (0x30 + d)

def decimal (n : Nat) : List Char := (digits n).map digitChar

end Rech.Text
