import Rech.Proofs.Grammar.Statement

/-!
# The grammar with any condition

Here the condition of a choice may be any expression in parentheses. Everything
else is as in the grammar, so what that has is had here, too.
-/

namespace Rech

variable (anchor : Token → Option Int)

mutual
inductive Stmt.Loose : List Token → Prop
  | strict (same : Stmt.Derives anchor w s) : Stmt.Loose w
  | block (inner : Block.Loose w) : Stmt.Loose w
  | choice (first : Choice.Loose w) : Stmt.Loose w

inductive Block.Loose : List Token → Prop
  | mk {opening closing : Token} (left : opening.kind = .leftBrace)
      (body : Stmt.LooseAll w) (right : closing.kind = .rightBrace) :
      Block.Loose (opening :: (w ++ [closing]))

inductive Choice.Loose : List Token → Prop
  | mk {word opening closing : Token} (keyword : word.kind = .ifWord)
      (left : opening.kind = .leftParen) (condition : Expr.Derives anchor Level.all w e)
      (right : closing.kind = .rightParen) (body : Block.Loose v) (otherwise : Otherwise.Loose u) :
      Choice.Loose (word :: opening :: (w ++ closing :: (v ++ u)))

inductive Otherwise.Loose : List Token → Prop
  | nothing : Otherwise.Loose []
  | block {word : Token} (keyword : word.kind = .elseWord) (chosen : Block.Loose w) :
      Otherwise.Loose (word :: w)
  | choice {word : Token} (keyword : word.kind = .elseWord) (chosen : Choice.Loose w) :
      Otherwise.Loose (word :: w)

inductive Stmt.LooseAll : List Token → Prop
  | nil : Stmt.LooseAll []
  | cons (first : Stmt.Loose v) (others : Stmt.LooseAll w) : Stmt.LooseAll (v ++ w)
end

variable {anchor}

theorem Stmt.DerivesAll.loose (h : Stmt.DerivesAll anchor w body) : Stmt.LooseAll anchor w := by
  induction body generalizing w with
  | nil =>
    cases h
    exact .nil
  | cons s rest ih =>
    cases h with
    | cons first others => exact .cons (.strict first) (ih others)

theorem Block.Derives.loose (h : Block.Derives anchor w b) : Block.Loose anchor w := by
  cases h with
  | mk left body right => exact .mk left body.loose right

end Rech
