import Rech.Binary64.Decimal
import Rech.Proofs.Tree.Lines
import Rech.Token.Basic

/-!
# The grammar of expressions

`Expr.Derives anchor levels w e` says that the tokens `w` spell the expression
`e`, whose operators outside of parentheses are of the given levels, the loosest
level first. With no levels an operand is spelled. A chain of operators of one
level grows to the left, and its right operands are of tighter levels only. The
line of a node is what `anchor` makes of the token the node stands at, so one
grammar describes trees with their lines and trees without.
-/

namespace Rech

inductive Level where
  | comparison
  | additive
  | multiplicative
deriving DecidableEq

namespace Level

/-- All levels, the loosest first. -/
def all : List Level := [comparison, additive, multiplicative]

def Has : Level → Token → Prop
  | comparison, sign => sign.kind = .comparison ∧
      sign.text ∈ ["==", "===", "<", ">", "<=", ">=", "!=", "!=="]
  | additive, sign => sign.kind = .math ∧ sign.text ∈ ["+", "-"]
  | multiplicative, sign => sign.kind = .math ∧ sign.text ∈ ["*", "/", "%"]

/-- The node of an operator with its operands. -/
def node : Level → Option Int → Expr → String → Expr → Expr
  | comparison => .comparison
  | additive | multiplicative => .math

end Level

inductive Expr.Derives (anchor : Token → Option Int) : List Level → List Token → Expr → Prop
  | number {token : Token} (kind : token.kind = .number) :
      Derives anchor [] [token] (.number (anchor token) (.ofText token.text.toList))
  | string {token : Token} (kind : token.kind = .string) :
      Derives anchor [] [token] (.string (anchor token) token.text)
  | null {token : Token} (kind : token.kind = .nullWord) :
      Derives anchor [] [token] (.null (anchor token) token.text)
  | identifier {token : Token} (kind : token.kind = .identifier) :
      Derives anchor [] [token] (.identifier ⟨anchor token, token.text⟩)
  | negate {sign : Token} (kind : sign.kind = .math) (text : sign.text = "-")
      (operand : Derives anchor [] w e) :
      Derives anchor [] (sign :: w) (.negate (anchor sign) e)
  | parenthesized {opening closing : Token} (left : opening.kind = .leftParen)
      (inner : Derives anchor Level.all w e) (right : closing.kind = .rightParen) :
      Derives anchor [] (opening :: (w ++ [closing])) e
  | single {level : Level} (operand : Derives anchor levels w e) :
      Derives anchor (level :: levels) w e
  | applied {level : Level} {sign : Token} (left : Derives anchor (level :: levels) v l)
      (operator : level.Has sign) (right : Derives anchor levels w r) :
      Derives anchor (level :: levels) (v ++ sign :: w) (level.node (anchor sign) l sign.text r)

/-- A token that goes on with no chain of the given levels. -/
def Token.Outside (levels : List Level) (token : Token) : Prop :=
  ∀ level ∈ levels, ¬level.Has token

namespace Level

variable {level : Level} {token : Token}

theorem Has.kind (h : level.Has token) : token.kind = .math ∨ token.kind = .comparison := by
  cases level with
  | comparison => exact .inr h.1
  | additive | multiplicative => exact .inl h.1

theorem Has.ne_endOfFile (h : level.Has token) : token.kind ≠ .endOfFile := by
  rcases h.kind with hk | hk <;> simp [hk]

theorem Has.unique {other : Level} (h : level.Has token) (h' : other.Has token) :
    level = other := by
  cases level <;> cases other <;> grind [Has]

end Level

theorem Token.outside_of_kind {levels : List Level} {token : Token} (hm : token.kind ≠ .math)
    (hc : token.kind ≠ .comparison) : token.Outside levels :=
  fun _ _ h => h.kind.elim hm hc

def Token.Kind.inExpression : Token.Kind → Bool
  | .number | .string | .nullWord | .identifier | .math | .comparison | .leftParen
  | .rightParen => true
  | _ => false

def Token.Kind.beginsExpression : Token.Kind → Bool
  | .number | .string | .nullWord | .identifier | .math | .leftParen => true
  | _ => false

namespace Expr.Derives

variable {anchor : Token → Option Int}

theorem exists_cons (h : Derives anchor levels w e) :
    ∃ token rest, w = token :: rest ∧ token.kind.beginsExpression = true := by
  induction h with
  | number kind | string kind | null kind | identifier kind => exact ⟨_, _, rfl, by rw [kind]; rfl⟩
  | negate kind => exact ⟨_, _, rfl, by rw [kind]; rfl⟩
  | parenthesized left => exact ⟨_, _, rfl, by rw [left]; rfl⟩
  | single _ ih => exact ih
  | applied _ _ _ ih =>
    obtain ⟨token, rest, rfl, hk⟩ := ih
    exact ⟨token, _, rfl, hk⟩

theorem inExpression (h : Derives anchor levels w e) :
    ∀ token ∈ w, token.kind.inExpression = true := by
  induction h with
  | number kind | string kind | null kind | identifier kind => simp [kind, Token.Kind.inExpression]
  | negate kind _ _ ih => simpa [kind, Token.Kind.inExpression] using ih
  | parenthesized left _ right ih =>
    intro token hm
    simp only [List.mem_cons, List.mem_append, List.not_mem_nil, or_false] at hm
    rcases hm with rfl | hm | rfl
    · rw [left]; rfl
    · exact ih _ hm
    · rw [right]; rfl
  | single _ ih => exact ih
  | applied _ operator _ ihl ihr =>
    intro token hm
    simp only [List.mem_append, List.mem_cons] at hm
    rcases hm with hm | rfl | hm
    · exact ihl _ hm
    · rcases operator.kind with hk | hk <;> rw [hk] <;> rfl
    · exact ihr _ hm

end Expr.Derives

end Rech
