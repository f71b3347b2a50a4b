import Std.Data.TreeMap
import Rech.Error
import Rech.Tree.Basic
import Rech.Value

/-!
# Evaluating expressions

Evaluation reads a store and changes nothing. Operands are evaluated from left
to right, their kinds are checked next and the operator last, so an operator
that does not exist shows only between numbers.
-/

namespace Rech

/-- The values of the declared names, ordered by name. -/
abbrev Store := Std.TreeMap String Value

namespace Value

def mathOperation? : String → Option (Binary64 → Binary64 → Binary64)
  | "+" => some Binary64.add
  | "-" => some Binary64.sub
  | "*" => some Binary64.mul
  | "/" => some Binary64.div
  | "%" => some Binary64.rem
  | _ => none

/-- The loose and the strict spelling of an operator mean the same. -/
def comparisonOperation? : String → Option (Binary64 → Binary64 → Bool)
  | "==" | "===" => some Binary64.equal
  | "!=" | "!==" => some fun a b => !a.equal b
  | "<" => some Binary64.less
  | ">" => some fun a b => b.less a
  | "<=" => some Binary64.lessEqual
  | ">=" => some fun a b => b.lessEqual a
  | _ => none

def math (operator : String) : Value → Value → Except EvalError.Cause Value
  | .number a, .number b =>
    match mathOperation? operator with
    | some operation => .ok (.number (operation a b))
    | none => .error (.unknownMathOperator operator)
  | _, _ => .error .mathOnNonNumbers

def compare (operator : String) : Value → Value → Except EvalError.Cause Bool
  | .number a, .number b =>
    match comparisonOperation? operator with
    | some operation => .ok (operation a b)
    | none => .error (.unknownComparisonOperator operator)
  | _, _ => .error .comparisonOfNonNumbers

def negate : Value → Except EvalError.Cause Value
  | .number a => .ok (.number a.neg)
  | _ => .error .negationOfNonNumber

end Value

def Expr.eval (store : Store) : Expr → Except EvalError.Cause Value
  | .identifier name =>
    match store[name.symbol]? with
    | some value => .ok value
    | none => .error (.unknownName name.symbol)
  | .number _ value => .ok (.number value)
  | .string _ text => .ok (.string text)
  | .null .. => .ok .null
  | .negate _ operand => do (← operand.eval store).negate
  | .math _ left operator right => do
    let a ← left.eval store
    let b ← right.eval store
    Value.math operator a b
  | .comparison _ left operator right => do
    let a ← left.eval store
    let b ← right.eval store
    return .boolean (← Value.compare operator a b)
  | .foreign _ kind => .error (.notAValue kind)

def Comparison.eval (store : Store) (condition : Comparison) : Except EvalError.Cause Bool := do
  let a ← condition.left.eval store
  let b ← condition.right.eval store
  Value.compare condition.operator a b

end Rech
