import Rech.Tree.Basic

/-!
# Lines of a tree

`mapLine` changes the line of every node and nothing else. Two changes of it
matter: a tree is taken without its lines, so that trees can be compared up to
lines, and the lines of a tree are raised by a number, as they are when text is
put before the text it was read from.
-/

namespace Rech

def Identifier.mapLine (f : Option Int → Option Int) (name : Identifier) : Identifier where
  line := f name.line
  symbol := name.symbol

def Expr.mapLine (f : Option Int → Option Int) : Expr → Expr
  | .identifier name => .identifier (name.mapLine f)
  | .number line value => .number (f line) value
  | .string line text => .string (f line) text
  | .null line spelling => .null (f line) spelling
  | .negate line operand => .negate (f line) (operand.mapLine f)
  | .math line left operator right =>
    .math (f line) (left.mapLine f) operator (right.mapLine f)
  | .comparison line left operator right =>
    .comparison (f line) (left.mapLine f) operator (right.mapLine f)
  | .foreign line kind => .foreign (f line) kind

def Comparison.mapLine (f : Option Int → Option Int) (condition : Comparison) : Comparison where
  line := f condition.line
  left := condition.left.mapLine f
  operator := condition.operator
  right := condition.right.mapLine f

def Assignment.mapLine (f : Option Int → Option Int) (assigned : Assignment) : Assignment where
  line := f assigned.line
  target := assigned.target.mapLine f
  value := assigned.value.mapLine f

def Declaration.mapLine (f : Option Int → Option Int) (declared : Declaration) : Declaration where
  line := f declared.line
  identifier := declared.identifier.mapLine f
  init := declared.init.mapLine f

mutual
def Stmt.mapLine (f : Option Int → Option Int) : Stmt → Stmt
  | .block inner => .block (inner.mapLine f)
  | .choice first => .choice (first.mapLine f)
  | .print line value => .print (f line) (value.mapLine f)
  | .return line value => .return (f line) (value.map (Expr.mapLine f))
  | .declaration declared => .declaration (declared.mapLine f)
  | .assignment assigned => .assignment (assigned.mapLine f)
  | .expression value => .expression (value.mapLine f)

def Block.mapLine (f : Option Int → Option Int) : Block → Block
  | .mk line body => .mk (f line) (Stmt.mapLines f body)

def Choice.mapLine (f : Option Int → Option Int) : Choice → Choice
  | .mk line condition body otherwise =>
    .mk (f line) (condition.mapLine f) (body.mapLine f) (otherwise.mapLine f)

def Otherwise.mapLine (f : Option Int → Option Int) : Otherwise → Otherwise
  | .nothing => .nothing
  | .block chosen => .block (chosen.mapLine f)
  | .choice chosen => .choice (chosen.mapLine f)

def Stmt.mapLines (f : Option Int → Option Int) : List Stmt → List Stmt
  | [] => []
  | statement :: others => statement.mapLine f :: Stmt.mapLines f others
end

def Program.mapLine (f : Option Int → Option Int) (program : Program) : Program where
  body := Stmt.mapLines f program.body

/-- Up to lines, two programs are the same when they are without them. -/
def Program.unlined (program : Program) : Program := program.mapLine fun _ => none

def raiseLine (by' : Int) (line : Option Int) : Option Int := line.map (· + by')

end Rech
