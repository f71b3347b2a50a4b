import Rech.Binary64.Basic

/-!
# Arithmetic and order of doubles

Each operation is exact integer arithmetic on units followed by `nearest`;
the remainder needs no rounding, since it is again the magnitude of a double
(`representable_mod`). Division is total: a zero divisor gives an infinity or
no number at all. Nothing is below, equal to or above what is not a number.
-/

namespace Rech.Binary64

/-- The position of a double on the line of units. Infinities stand just
outside all finite doubles, and both zeros on zero. -/
def position? : Binary64 → Option Int
  | .nan => none
  | .infinite negative => some (if negative then -(limit : Int) else limit)
  | .finite negative units _ => some (if negative then -(units : Int) else units)

def compares (relation : Int → Int → Bool) (a b : Binary64) : Bool :=
  match a.position?, b.position? with
  | some x, some y => relation x y
  | _, _ => false

def equal (a b : Binary64) : Bool := compares (fun x y => x = y) a b

def less (a b : Binary64) : Bool := compares (fun x y => x < y) a b

def lessEqual (a b : Binary64) : Bool := compares (fun x y => x ≤ y) a b

def neg : Binary64 → Binary64
  | .nan => .nan
  | .infinite negative => .infinite !negative
  | .finite negative units h => .finite (!negative) units h

/-- A zero sum is negative only if both summands are. -/
def add : Binary64 → Binary64 → Binary64
  | .nan, _ | _, .nan => .nan
  | .infinite m, .infinite n => if m = n then .infinite m else .nan
  | .infinite m, .finite .. => .infinite m
  | .finite .., .infinite n => .infinite n
  | .finite m a _, .finite n b _ =>
    let sum : Int := (if m then -(a : Int) else a) + (if n then -(b : Int) else b)
    nearest (if sum = 0 then m && n else sum < 0) sum.natAbs 1

def sub (a b : Binary64) : Binary64 := a.add b.neg

def mul : Binary64 → Binary64 → Binary64
  | .nan, _ | _, .nan => .nan
  | .infinite m, .infinite n => .infinite (m != n)
  | .infinite m, .finite n units _ | .finite m units _, .infinite n =>
    if units = 0 then .nan else .infinite (m != n)
  | .finite m a _, .finite n b _ => nearest (m != n) (a * b) one

def div : Binary64 → Binary64 → Binary64
  | .nan, _ | _, .nan => .nan
  | .infinite _, .infinite _ => .nan
  | .infinite m, .finite n .. => .infinite (m != n)
  | .finite m .., .infinite n => zero (m != n)
  | .finite m a _, .finite n b _ =>
    if b = 0 then (if a = 0 then .nan else .infinite (m != n))
    else nearest (m != n) (a * one) b

theorem representable_mod {a b : Nat} (ha : Representable a) (hb : Representable b)
    (hpos : b ≠ 0) : Representable (a % b) := by
  have hle := Nat.mod_le a b
  have hlt := Nat.mod_lt a (Nat.pos_of_ne_zero hpos)
  have hda := Nat.dvd_trans (step_dvd_step hle) ha.2
  have hdb := Nat.dvd_trans (step_dvd_step (Nat.le_of_lt hlt)) hb.2
  exact ⟨Nat.lt_of_le_of_lt hle ha.1, (Nat.dvd_mod_iff hdb).2 hda⟩

/-- The remainder of truncated division, with the sign of the dividend. -/
def rem : Binary64 → Binary64 → Binary64
  | .nan, _ | _, .nan | .infinite _, _ => .nan
  | .finite m a ha, .infinite _ => .finite m a ha
  | .finite m a ha, .finite _ b hb =>
    if h : b = 0 then .nan else .finite m (a % b) (representable_mod ha hb h)

end Rech.Binary64
