import Rech.Tree.Basic

/-!
# The statements of a tree

The statements of a program in the order of its text. The block that a choice
takes and the choices chained to it are no statements of their own; the
statements inside of them are.
-/

namespace Rech

mutual
def Stmt.inner : Stmt → List Stmt
  | .block inner => inner.statements
  | .choice first => first.statements
  | _ => []

def Block.statements : Block → List Stmt
  | .mk _ body => Stmt.allStatements body

def Choice.statements : Choice → List Stmt
  | .mk _ _ body otherwise => body.statements ++ otherwise.statements

def Otherwise.statements : Otherwise → List Stmt
  | .nothing => []
  | .block chosen => chosen.statements
  | .choice chosen => chosen.statements

def Stmt.allStatements : List Stmt → List Stmt
  | [] => []
  | statement :: others => statement :: (statement.inner ++ Stmt.allStatements others)
end

def Program.statements (program : Program) : List Stmt := Stmt.allStatements program.body

theorem Stmt.allStatements_append (body others : List Stmt) :
    Stmt.allStatements (body ++ others) = Stmt.allStatements body ++ Stmt.allStatements others := by
  induction body with
  | nil => rfl
  | cons s rest ih => simp [Stmt.allStatements, ih]

theorem Block.allStatements_body (b : Block) : Stmt.allStatements b.body = b.statements := by
  cases b
  rfl

mutual
/-- The conditions of a choice and of the choices chained to it. -/
def Choice.conditions : Choice → List Comparison
  | .mk _ condition _ otherwise => condition :: otherwise.conditions

def Otherwise.conditions : Otherwise → List Comparison
  | .nothing => []
  | .block _ => []
  | .choice chosen => chosen.conditions
end

/-- The expressions that a statement evaluates by itself. -/
def Stmt.expressions : Stmt → List Expr
  | .block _ => []
  | .choice first => first.conditions.map Comparison.toExpr
  | .print _ value => [value]
  | .return _ value => value.toList
  | .declaration declared => [declared.init.value]
  | .assignment assigned => [assigned.value]
  | .expression value => [value]

-- ---------------------------------------------------------------------------
-- Names
-- ---------------------------------------------------------------------------

def Expr.names : Expr → List String
  | .identifier name => [name.symbol]
  | .negate _ operand => operand.names
  | .math _ left _ right | .comparison _ left _ right => left.names ++ right.names
  | _ => []

/-- The names that a statement may declare or assign by itself. -/
def Stmt.targets : Stmt → List String
  | .declaration declared => [declared.identifier.symbol, declared.init.target.symbol]
  | .assignment assigned => [assigned.target.symbol]
  | _ => []

def Stmt.names (s : Stmt) : List String := s.targets ++ s.expressions.flatMap Expr.names

def Program.names (program : Program) : List String := program.statements.flatMap Stmt.names

def Program.targets (program : Program) : List String := program.statements.flatMap Stmt.targets

end Rech
