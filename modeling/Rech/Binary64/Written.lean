import Rech.Binary64.Decimal

/-!
# Written forms of doubles

`inspect` shows a double for a programmer and `display` for a reader of
output. Both write the fewest digits that read back, with a point from 10^-4
up to below 10^16 and with an exponent otherwise. `display` writes whole
numbers below 10^21 exactly and without a point, has no negative zero, and
pads no exponent.
-/

namespace Rech.Binary64

def withSign (negative : Bool) (text : List Char) : List Char :=
  if negative then '-' :: text else text

def positional (number : Scientific) : List Char :=
  let chars := number.digits.map Text.digitChar
  if number.exponent < 0 then
    '0' :: '.' :: List.replicate (number.exponent.natAbs - 1) '0' ++ chars
  else
    let count := number.exponent.toNat + 1
    let fraction := chars.drop count
    (chars.take count).rightpad count '0' ++
      '.' :: (if fraction.isEmpty then ['0'] else fraction)

def withExponent (width : Nat) (number : Scientific) : List Char :=
  let mantissa :=
    match number.digits.map Text.digitChar with
    | [] => []
    | [c] => [c]
    | c :: rest => c :: '.' :: rest
  mantissa ++ 'e' :: (if number.exponent < 0 then '-' else '+') ::
    (Text.decimal number.exponent.natAbs).leftpad width '0'

/-- The exponent, where there is one, has at least `width` digits. -/
def Scientific.text (width : Nat) (number : Scientific) : List Char :=
  if -4 ≤ number.exponent ∧ number.exponent < 16 then positional number
  else withExponent width number

def inspect : Binary64 → String
  | .nan => "nan"
  | .infinite negative => String.ofList (withSign negative ['i', 'n', 'f'])
  | .finite negative units _ =>
    String.ofList <| withSign negative <|
      if units = 0 then ['0', '.', '0'] else (shortest units).text 2

/-- A whole number of magnitude below 10^21. -/
def whole? (units : Nat) : Option Nat :=
  if units % one = 0 && units / one < Nat.pow 10 21 then some (units / one) else none

def display : Binary64 → String
  | .nan => "NaN"
  | .infinite negative => if negative then "-Infinity" else "Infinity"
  | .finite negative units _ =>
    String.ofList <|
      match whole? units with
      | some n => withSign (negative && n != 0) (Text.decimal n)
      | none => withSign negative ((shortest units).text 1)

end Rech.Binary64
