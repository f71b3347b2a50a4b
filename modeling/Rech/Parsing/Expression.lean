import Rech.Binary64.Decimal
import Rech.Parsing.Basic
import Rech.Tree.Basic

/-!
# Reading expressions

Comparisons bind weaker than sums, sums weaker than products, and products
weaker than signs. Operators of one tier associate to the left. Parentheses
leave no node. The bounds are numbers of tokens left: at a bound of zero only
the end is in front, and what is answered there is what the end deserves.
-/

namespace Rech

/-- Operators that bind equally strong, with the node they make. -/
structure Tier where
  kind : Token.Kind
  spellings : List String
  node : Option Int → Expr → String → Expr → Expr

namespace Tier

def comparison : Tier where
  kind := .comparison
  spellings := ["==", "===", "<", ">", "<=", ">=", "!=", "!=="]
  node := .comparison

def additive : Tier where
  kind := .math
  spellings := ["+", "-"]
  node := .math

def multiplicative : Tier where
  kind := .math
  spellings := ["*", "/", "%"]
  node := .math

def has (tier : Tier) (token : Token) : Bool :=
  token.kind = tier.kind && tier.spellings.contains token.text

end Tier

namespace Parsing

/-- The operators of a tier with their right operands, applied to what stands
left of them. -/
def chain (tier : Tier) (operand : Parsing Expr) : Nat → Expr → Parsing Expr
  | 0, leftOperand => return leftOperand
  | bound + 1, leftOperand => do
    let token ← peek 0
    if tier.has token then
      let _ ← take
      let rightOperand ← operand
      chain tier operand bound (tier.node token.place.line leftOperand token.text rightOperand)
    else return leftOperand

def tier (tier : Tier) (operand : Parsing Expr) : Parsing Expr := do
  let first ← operand
  chain tier operand (← remaining) first

def tiers (operand : Parsing Expr) : Parsing Expr :=
  tier .comparison (tier .additive (tier .multiplicative operand))

def parenthesized (inner : Parsing Expr) : Parsing Expr := do
  let _ ← take
  let value ← inner
  let _ ← eat .rightParen .unclosedParenthesis
  return value

def unexpected : Parsing α := do
  let token ← peek 0
  fail (.unexpected (if token.kind = .endOfFile then "конец файла" else token.text))

def identifier : Parsing Identifier := do
  let token ← take
  return ⟨token.place.line, token.text⟩

def operandWithin : Nat → Parsing Expr
  | 0 => unexpected
  | bound + 1 => do
    let token ← peek 0
    let line := token.place.line
    match token.kind with
    | .math =>
      if token.text = "-" then
        let _ ← take
        return .negate line (← operandWithin bound)
      else unexpected
    | .number =>
      let _ ← take
      return .number line (.ofText token.text.toList)
    | .string =>
      let _ ← take
      return .string line token.text
    | .nullWord =>
      let _ ← take
      return .null line token.text
    | .leftParen => parenthesized (tiers (operandWithin bound))
    | .identifier => return .identifier (← identifier)
    | _ => unexpected

def operand : Parsing Expr := do
  operandWithin (← remaining)

def product : Parsing Expr := tier .multiplicative operand

def sum : Parsing Expr := tier .additive product

def expression : Parsing Expr := tier .comparison sum

end Parsing

end Rech
