import Rech.Outline.Basic
import Rech.Tree.Basic

/-!
# Outlines of syntax trees

An outline of a tree shows everything but the lines.
-/

namespace Rech

def Outline.node (kind : String) (fields : List (String × Outline)) : Outline :=
  .map (("type", .text kind) :: fields)

def Identifier.outline (name : Identifier) : Outline :=
  .node "Identifier" [("symbol", .text name.symbol)]

def Outline.operation (kind operator : String) (left right : Outline) : Outline :=
  .node kind [("operator", .text operator), ("left", left), ("right", right)]

def Expr.outline (expr : Expr) : Outline :=
  match expr with
  | .identifier name => name.outline
  | .number _ value => .node expr.kindName [("value", .number value)]
  | .string _ text | .null _ text => .node expr.kindName [("value", .text text)]
  | .negate _ operand => .node expr.kindName [("arg", operand.outline)]
  | .math _ left operator right | .comparison _ left operator right =>
    .operation expr.kindName operator left.outline right.outline
  | .foreign _ kind => .node kind []

def Assignment.outline (assigned : Assignment) : Outline :=
  .node "AssignmentOperation"
    [("left", assigned.target.outline), ("right", assigned.value.outline)]

mutual
def Stmt.outline (statement : Stmt) : Outline :=
  match statement with
  | .block inner => inner.outline
  | .choice first => first.outline
  | .print _ value => .node statement.kindName [("value", value.outline)]
  | .return _ value => .node statement.kindName [("value", (value.map Expr.outline).getD .absent)]
  | .declaration declared =>
    .node statement.kindName
      [("identifier", declared.identifier.outline), ("init", declared.init.outline)]
  | .assignment assigned => assigned.outline
  | .expression value => value.outline

def Block.outline : Block → Outline
  | .mk _ body => .node "BlockStatement" [("body", .list (Stmt.outlines body))]

def Choice.outline : Choice → Outline
  | .mk _ condition body otherwise =>
    .node "IfStatement" [("condition", condition.toExpr.outline), ("body", body.outline),
      ("else", otherwise.outline)]

def Otherwise.outline : Otherwise → Outline
  | .nothing => .absent
  | .block chosen => chosen.outline
  | .choice chosen => chosen.outline

def Stmt.outlines : List Stmt → List Outline
  | [] => []
  | statement :: others => statement.outline :: Stmt.outlines others
end

def Program.outline (program : Program) : Outline :=
  .node "Program" [("body", .list (Stmt.outlines program.body))]

end Rech
