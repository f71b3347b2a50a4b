import Rech.Binary64.Basic

/-!
# Syntax trees

A node has the line of the token it is anchored at, if it was read from a
text. Operators are kept as they are spelled, and a tree made by hand may
spell one that does not exist. It may also have a node of another kind where
an expression is expected: `foreign` stands for such a node.
-/

namespace Rech

structure Identifier where
  line : Option Int
  symbol : String
deriving DecidableEq

inductive Expr where
  | identifier (identifier : Identifier)
  | number (line : Option Int) (value : Binary64)
  | string (line : Option Int) (text : String)
  | null (line : Option Int) (spelling : String)
  | negate (line : Option Int) (operand : Expr)
  | math (line : Option Int) (left : Expr) (operator : String) (right : Expr)
  | comparison (line : Option Int) (left : Expr) (operator : String) (right : Expr)
  | foreign (line : Option Int) (kind : String)
deriving DecidableEq

structure Comparison where
  line : Option Int
  left : Expr
  operator : String
  right : Expr
deriving DecidableEq

structure Assignment where
  line : Option Int
  target : Identifier
  value : Expr
deriving DecidableEq

/-- A declaration reads back as the assignment of its first value. -/
structure Declaration where
  line : Option Int
  identifier : Identifier
  init : Assignment
deriving DecidableEq

mutual
inductive Stmt where
  | block (inner : Block)
  | choice (first : Choice)
  | print (line : Option Int) (value : Expr)
  | return (line : Option Int) (value : Option Expr)
  | declaration (declared : Declaration)
  | assignment (assigned : Assignment)
  | expression (value : Expr)

inductive Block where
  | mk (line : Option Int) (body : List Stmt)

inductive Choice where
  | mk (line : Option Int) (condition : Comparison) (body : Block) (otherwise : Otherwise)

inductive Otherwise where
  | nothing
  | block (chosen : Block)
  | choice (chosen : Choice)
end

structure Program where
  body : List Stmt

namespace Expr

def line : Expr → Option Int
  | .identifier name => name.line
  | .number line _ | .string line _ | .null line _ | .negate line _ | .math line ..
  | .comparison line .. | .foreign line _ => line

def kindName : Expr → String
  | .identifier _ => "Identifier"
  | .number .. => "NumericLiteral"
  | .string .. => "StringLiteral"
  | .null .. => "NullLiteral"
  | .negate .. => "UnaryMinusExpression"
  | .math .. => "MathOperation"
  | .comparison .. => "ComparisonOperation"
  | .foreign _ kind => kind

def comparison? : Expr → Option Comparison
  | .comparison line left operator right => some ⟨line, left, operator, right⟩
  | _ => none

end Expr

def Comparison.toExpr (comparison : Comparison) : Expr :=
  .comparison comparison.line comparison.left comparison.operator comparison.right

def Block.line : Block → Option Int
  | .mk line _ => line

def Block.body : Block → List Stmt
  | .mk _ body => body

def Choice.line : Choice → Option Int
  | .mk line .. => line

/-- What a statement chooses otherwise. Only a block and another choice can
be chosen. -/
def Otherwise.ofStmt : Stmt → Otherwise
  | .block chosen => .block chosen
  | .choice chosen => .choice chosen
  | _ => .nothing

namespace Stmt

def line : Stmt → Option Int
  | .block inner => inner.line
  | .choice first => first.line
  | .print line _ | .return line _ => line
  | .declaration declared => declared.line
  | .assignment assigned => assigned.line
  | .expression value => value.line

def kindName : Stmt → String
  | .block _ => "BlockStatement"
  | .choice _ => "IfStatement"
  | .print .. => "PrintStatement"
  | .return .. => "ReturnStatement"
  | .declaration _ => "VarDeclaration"
  | .assignment _ => "AssignmentOperation"
  | .expression value => value.kindName

end Stmt

end Rech
