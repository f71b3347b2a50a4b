import Rech.Parsing.Expression
import Rech.Token.Reader

/-!
# Reading statements and programs

A statement is told by its first token, and an assignment by the second. The
condition of a choice may be any expression when it is read; that it is no
comparison is an error of the choice, and is reported once its body begins.
-/

namespace Rech

namespace Parsing

def block (statement : Parsing Stmt) : Parsing Block := do
  let opening ← take
  let body ← items (· = .rightBrace) statement (← remaining)
  let _ ← eat .rightBrace .unclosedBlock
  return .mk opening.place.line body

def otherwise (choice : Parsing Choice) (block : Parsing Block) : Parsing Otherwise := do
  if (← peek 0).kind = .elseWord then
    let _ ← take
    match (← peek 0).kind with
    | .ifWord => return .choice (← choice)
    | .leftBrace => return .block (← block)
    | _ => fail .elseWithoutBranch
  else return .nothing

def choice (statement : Parsing Stmt) : Nat → Parsing Choice
  | 0 => fail .missingCondition
  | bound + 1 => do
    let word ← take
    expect .leftParen .missingCondition
    let condition ← parenthesized expression
    expect .leftBrace .missingBody
    match condition.comparison? with
    | none => throw ⟨.conditionWithoutComparison, word.place⟩
    | some comparison =>
      let body ← block statement
      let otherwise ← otherwise (choice statement bound) (block statement)
      return .mk word.place.line comparison body otherwise

def printStatement : Parsing Stmt := do
  let word ← take
  let value ← expression
  semicolon
  return .print word.place.line value

/-- An expression unless the statement ends here. -/
def expression? : Parsing (Option Expr) := do
  if (← peek 0).kind = .semicolon then return none else return some (← expression)

def returnStatement : Parsing Stmt := do
  let word ← take
  let value ← expression?
  semicolon
  return .return word.place.line value

def assignment : Parsing Assignment := do
  expect .identifier .badAssignment
  let target ← identifier
  let _ ← take
  let value ← expression
  return ⟨target.line, target, value⟩

def declaration : Parsing Declaration := do
  let word ← take
  if (← peek 0).kind = .identifier && (← peek 1).kind = .assign then
    let init ← assignment
    semicolon
    return ⟨word.place.line, init.target, init⟩
  else fail .badDeclaration

def assignmentOrExpression : Parsing Stmt := do
  if (← peek 1).kind = .assign then return .assignment (← assignment)
  else return .expression (← expression)

def simpleStatement : Parsing Stmt := do
  let statement ← assignmentOrExpression
  semicolon
  return statement

def statementWithin : Nat → Parsing Stmt
  | 0 => unexpected
  | bound + 1 => do
    match (← peek 0).kind with
    | .leftBrace => return .block (← block (statementWithin bound))
    | .ifWord => return .choice (← choice (statementWithin bound) (bound + 1))
    | .printWord => printStatement
    | .returnWord => returnStatement
    | .letWord => return .declaration (← declaration)
    | _ => simpleStatement

def statement : Parsing Stmt := do
  statementWithin (← remaining)

def program : Parsing Program := do
  return ⟨← items (fun _ => false) statement (← remaining)⟩

end Parsing

def Parsing.ofTokens (parsing : Parsing α) (tokens : List Token) : Except SyntaxError α := do
  (parsing.runOn (← TokenStream.ofTokens tokens)).1

def Program.ofTokens (tokens : List Token) : Except SyntaxError Program :=
  Parsing.program.ofTokens tokens

def Program.ofSource (source : List Char) : Except SyntaxError Program := do
  Program.ofTokens (← Token.ofSource source)

end Rech
