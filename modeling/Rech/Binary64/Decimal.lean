import Rech.Binary64.Basic
import Rech.Text.DecimalDigit
import Rech.Text.Digits

/-!
# Doubles and decimal digits

Reading takes the longest numeric beginning of a text and rounds it once.
Writing looks for the fewest digits that read back: a unit is a whole number
of 10^-1074, so leaving off all digits but one, all but two and so on, it
takes the first count at which a neighbour of the magnitude reads back, and of
two such neighbours the nearer one, a tie going to the even digit. Leaving off
none always reads back, so the search needs no other end.
-/

namespace Rech.Binary64

/-- The digits before and behind the point of the longest beginning that is
digits, digits with a point, or a point with digits. -/
def leadingNumber? (text : List Char) : Option (List Char × List Char) :=
  let whole := text.takeWhile Text.isDigit
  match text.dropWhile Text.isDigit with
  | '.' :: rest =>
    let fraction := rest.takeWhile Text.isDigit
    if whole.isEmpty && fraction.isEmpty then none else some (whole, fraction)
  | _ => if whole.isEmpty then none else some (whole, [])

/-- The double nearest to a whole number over a power of ten. -/
def ofDecimal (coefficient places : Nat) : Binary64 :=
  nearest false (coefficient * one) (Nat.pow 10 places)

/-- The number that a text begins with, and no number if it begins with none. -/
def ofText (text : List Char) : Binary64 :=
  match leadingNumber? text with
  | none => .nan
  | some (whole, fraction) =>
    ofDecimal (Text.valueOf ((whole ++ fraction).filterMap Text.digitValue?)) fraction.length

/-- How many decimal quanta of 10^-1074 a unit of 2^-1074 is. -/
def quantaPerUnit : Nat := Nat.pow 5 1074

/-- Whether a number of quanta is a decimal of this magnitude. -/
def readsBack (units quanta : Nat) : Bool :=
  nearestUnits quanta quantaPerUnit = units

/-- The multiple of 10^drop quanta that stands for a magnitude, if one of its
two neighbours does. -/
def neighbour? (units drop : Nat) : Option Nat :=
  let quanta := units * quantaPerUnit
  let spacing := Nat.pow 10 drop
  let below := quanta / spacing
  [halfEven quanta spacing, below, below + 1].find? fun coefficient =>
    readsBack units (coefficient * spacing)

/-- The largest index up to a bound that has a candidate, behind the candidate,
and zero behind the given number if none has. -/
def descend (candidate? : Nat → Option Nat) (whole : Nat) : Nat → Nat × Nat
  | 0 => (whole, 0)
  | index + 1 =>
    match candidate? (index + 1) with
    | some candidate => (candidate, index + 1)
    | none => descend candidate? whole index

/-- A coefficient and the number of trailing quanta digits left off. -/
def shortestFrom (units drop : Nat) : Nat × Nat :=
  descend (neighbour? units) (units * quantaPerUnit) drop

/-- Digits `d₀ d₁ d₂ …`, standing for `d₀.d₁d₂… × 10^exponent`. -/
structure Scientific where
  digits : List Nat
  exponent : Int
deriving DecidableEq, Repr

def withoutTrailingZeros (ds : List Nat) : List Nat :=
  (ds.reverse.dropWhile (· = 0)).reverse

/-- The fewest digits that read back as a nonzero magnitude. -/
def shortest (units : Nat) : Scientific :=
  let found := shortestFrom units (Text.digitCount (units * quantaPerUnit) - 1)
  { digits := withoutTrailingZeros (Text.digits found.1)
    exponent := (Text.digitCount found.1 : Int) - 1 + found.2 - 1074 }

end Rech.Binary64
