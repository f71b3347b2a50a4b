import Rech.Run.Expression

/-!
# Operations that cannot fault

The quotient, the remainder and the whole part of a machine are partial, and a
value is shown by the name of its kind, which might be none. The language tests
the operands of each before, and where the tests leave nothing to compute they
give the result themselves. So no fault is left, and what the tests and the
machine give together is `div`, `rem` and `display`.
-/

namespace Rech

inductive Fault where
  | zeroDivisor
  | noRemainder
  | noWholePart
  | unknownKind (name : String)
deriving DecidableEq, Repr

namespace Binary64

-- ---------------------------------------------------------------------------
-- Tests
-- ---------------------------------------------------------------------------

def isNan : Binary64 → Bool
  | .nan => true
  | _ => false

def isInfinite : Binary64 → Bool
  | .infinite _ => true
  | _ => false

def isZero (a : Binary64) : Bool := a.equal (zero false)

def isNegative : Binary64 → Bool
  | .nan => false
  | .infinite negative | .finite negative .. => negative

theorem isZero_finite {negative : Bool} {units : Nat} (h : Representable units) :
    (finite negative units h).isZero = decide (units = 0) := by
  cases negative <;> simp [isZero, equal, compares, position?, zero]

theorem isZero_infinite (negative : Bool) : (infinite negative).isZero = false := by
  have hpos := limit_pos
  simp only [isZero, equal, compares, position?, zero]
  generalize limit = bound at hpos
  cases negative <;> simp <;> omega

theorem zero_less_infinite (negative : Bool) :
    (zero false).less (infinite negative) = !negative := by
  have hpos := limit_pos
  simp only [less, compares, position?, zero]
  generalize limit = bound at hpos
  cases negative with
  | false => simpa using hpos
  | true => simp

theorem one_lt_limit : one < limit := by
  have h : 1074 < 2098 := by decide
  unfold one limit
  generalize 1074 = m at h
  generalize 2098 = n at h
  exact Nat.pow_lt_pow_right (by decide) h

theorem representable_one : Representable one := by
  refine ⟨one_lt_limit, ?_⟩
  unfold one
  generalize 1074 = exponent
  simpa only [Nat.one_mul] using step_mul_dvd (n := 1) (k := exponent) (by decide)

def unit : Binary64 := .finite false one representable_one

def copySign : Binary64 → Binary64 → Binary64
  | .nan, _ => .nan
  | .infinite _, sign => .infinite sign.isNegative
  | .finite _ units h, sign => .finite sign.isNegative units h

-- ---------------------------------------------------------------------------
-- The machine
-- ---------------------------------------------------------------------------

def machineQuotient (a b : Binary64) : Except Fault Binary64 :=
  if b.isZero then .error .zeroDivisor else .ok (a.div b)

/-- No remainder is left by an infinite dividend or a zero divisor, unless the
other operand is not a number. -/
def machineRemainder (a b : Binary64) : Except Fault Binary64 :=
  if a.isNan || b.isNan then .ok .nan
  else if a.isInfinite || b.isZero then .error .noRemainder
  else .ok (a.rem b)

def signedWhole (negative : Bool) (units : Nat) : Int :=
  if negative then -(units / one : Nat) else (units / one : Nat)

theorem position?_eq_whole_iff {negative : Bool} {units : Nat} (h : Representable units) :
    (finite negative units h).position? = some (signedWhole negative units * one) ↔
      units % one = 0 := by
  have hparts := Nat.div_add_mod' units one
  have hproduct : ((units / one : Nat) : Int) * one = (units / one * one : Nat) :=
    (Int.natCast_mul (units / one) one).symm
  cases negative <;> simp only [position?, signedWhole, Option.some.injEq, if_true, if_false,
    Bool.false_eq_true, Int.neg_mul, hproduct] <;> omega

theorem natAbs_signedWhole (negative : Bool) (units : Nat) :
    (signedWhole negative units).natAbs = units / one := by
  unfold signedWhole
  split
  · rw [Int.natAbs_neg, Int.natAbs_natCast]
  · exact Int.natAbs_natCast _

theorem signedWhole_lt_zero (negative : Bool) (units : Nat) :
    decide (signedWhole negative units < 0) = (negative && units / one != 0) := by
  unfold signedWhole
  generalize units / one = n
  cases negative with
  | false => simp
  | true =>
    by_cases hn : n = 0
    · simp [hn]
    · have hneg : decide (-(n : Int) < 0) = true := decide_eq_true (by omega)
      rw [if_pos rfl, hneg]
      simp [hn]

def machineWhole : Binary64 → Except Fault Int
  | .finite negative units _ => .ok (signedWhole negative units)
  | _ => .error .noWholePart

-- ---------------------------------------------------------------------------
-- What the language makes of it
-- ---------------------------------------------------------------------------

def quotient (a b : Binary64) : Except Fault Binary64 :=
  if b.isZero then
    if a.isZero || a.isNan then .ok .nan
    else .ok (((infinite false).copySign a).mul (unit.copySign b))
  else machineQuotient a b

def remainder (a b : Binary64) : Except Fault Binary64 :=
  if b.isZero || a.isInfinite || a.isNan || b.isNan then .ok .nan
  else if b.isInfinite then .ok a
  else machineRemainder a b

def shortened : Binary64 → String
  | .finite negative units _ => String.ofList (withSign negative ((shortest units).text 1))
  | a => a.inspect

/-- A number that is its own whole part is written as that, unless it is long. -/
def written (a : Binary64) : Except Fault String :=
  if a.isNan then .ok "NaN"
  else if a.isInfinite then .ok (if (zero false).less a then "Infinity" else "-Infinity")
  else do
    let whole ← machineWhole a
    if a.position? = some (whole * one) ∧ whole.natAbs < Nat.pow 10 21 then
      return String.ofList (withSign (whole < 0) (Text.decimal whole.natAbs))
    else return a.shortened

theorem quotient_eq (a b : Binary64) : quotient a b = .ok (a.div b) := by
  unfold quotient machineQuotient
  by_cases hb : b.isZero = true
  · cases b with
    | nan => cases hb
    | infinite => simp [isZero_infinite] at hb
    | finite n units h =>
      rw [isZero_finite] at hb
      obtain rfl : units = 0 := by simpa using hb
      cases a with
      | nan => simp [div, isZero_finite, isNan]
      | infinite m =>
        simp [div, isZero_finite, isNan, isZero_infinite, copySign, unit, mul, isNegative,
          Nat.ne_of_gt one_pos]
      | finite m units' h' =>
        by_cases hu : units' = 0
        · simp [div, isZero_finite, hu]
        · simp [div, isZero_finite, isNan, copySign, unit, mul, isNegative,
            Nat.ne_of_gt one_pos, hu]
  · simp [hb]

theorem remainder_eq (a b : Binary64) : remainder a b = .ok (a.rem b) := by
  cases a with
  | nan => simp [remainder, rem, isNan]
  | infinite => cases b <;> simp [remainder, rem, isInfinite]
  | finite m units h =>
    cases b with
    | nan => simp [remainder, rem, isNan]
    | infinite => simp [remainder, rem, isNan, isInfinite, isZero_infinite]
    | finite n units' h' =>
      by_cases hb : units' = 0 <;>
        simp [remainder, machineRemainder, rem, isNan, isInfinite, isZero_finite, hb]

theorem written_eq (a : Binary64) : written a = .ok a.display := by
  cases a with
  | nan => rfl
  | infinite negative =>
    simp only [written, isNan, isInfinite, zero_less_infinite, display]
    cases negative <;> rfl
  | finite negative units h =>
    simp only [written, isNan, isInfinite, machineWhole, display, shortened, bind, Except.bind,
      Bool.false_eq_true, if_false, position?_eq_whole_iff, natAbs_signedWhole,
      signedWhole_lt_zero, whole?, Bool.and_eq_true, decide_eq_true_eq]
    split <;> rfl

end Binary64

namespace Value

def machineOperation? : String → Option (Binary64 → Binary64 → Except Fault Binary64)
  | "+" => some fun a b => .ok (a.add b)
  | "-" => some fun a b => .ok (a.sub b)
  | "*" => some fun a b => .ok (a.mul b)
  | "/" => some Binary64.quotient
  | "%" => some Binary64.remainder
  | _ => none

theorem machineOperation?_eq (operator : String) :
    machineOperation? operator =
      (mathOperation? operator).map fun operation a b => .ok (operation a b) := by
  unfold machineOperation? mathOperation?
  split
  case h_4 => exact congrArg some (funext fun a => funext fun b => Binary64.quotient_eq a b)
  case h_5 => exact congrArg some (funext fun a => funext fun b => Binary64.remainder_eq a b)
  case h_6 => simp [*]
  all_goals rfl

def machineDisplay (value : Value) : Except Fault String :=
  match Kind.ofName value.kind.name, value with
  | .ok .number, .number a => a.written
  | .ok .string, .string text => .ok text
  | .ok .boolean, .boolean flag => .ok (booleanWord flag)
  | .ok .null, _ => .ok "ничто"
  | .ok .unset, _ => .ok "неопределено"
  | _, _ => .error (.unknownKind value.kind.name)

theorem Kind.ofName_name (kind : Kind) : Kind.ofName kind.name = .ok kind := by
  cases kind <;> rfl

theorem machineDisplay_eq (value : Value) : value.machineDisplay = .ok value.display := by
  unfold machineDisplay
  rw [Kind.ofName_name]
  cases value with
  | number a => exact a.written_eq
  | _ => rfl

end Value

end Rech
