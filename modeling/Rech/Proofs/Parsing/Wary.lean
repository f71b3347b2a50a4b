import Rech.Parsing.Statement

/-!
# Readers that trust nobody

The readers of trees take many tokens unseen, as what led to them looked at these
tokens before, and they count rounds that must not run out. Here are the same readers
with each of these tokens looked at once more, with an alarm where it is not the token
that is meant, and with the same alarm where the rounds run out.
-/

namespace Rech.Parsing.Wary

variable (alarm : SyntaxError.Cause)

/-- Takes the token in front, which is meant to be such a token. -/
def demand (meant : Token → Bool) : Parsing Token := do
  if meant (← peek 0) then take else fail alarm

def items (closing : Token.Kind → Bool) (item : Parsing α) : Nat → Parsing (List α)
  | 0 => fail alarm
  | bound + 1 => do
    let kind := (← peek 0).kind
    if kind = .endOfFile || closing kind then return []
    else
      let first ← item
      let others ← items closing item bound
      return first :: others

def chain (tier : Tier) (operand : Parsing Expr) : Nat → Expr → Parsing Expr
  | 0, _ => fail alarm
  | bound + 1, leftOperand => do
    let token ← peek 0
    if tier.has token then
      let _ ← demand alarm tier.has
      let rightOperand ← operand
      chain tier operand bound (tier.node token.place.line leftOperand token.text rightOperand)
    else return leftOperand

def tier (tier : Tier) (operand : Parsing Expr) : Parsing Expr := do
  let first ← operand
  chain alarm tier operand (← remaining) first

def tiers (operand : Parsing Expr) : Parsing Expr :=
  tier alarm .comparison (tier alarm .additive (tier alarm .multiplicative operand))

def parenthesized (inner : Parsing Expr) : Parsing Expr := do
  let _ ← demand alarm (·.kind = .leftParen)
  let value ← inner
  let _ ← eat .rightParen .unclosedParenthesis
  return value

def identifier : Parsing Identifier := do
  let token ← demand alarm (·.kind = .identifier)
  return ⟨token.place.line, token.text⟩

def operandWithin : Nat → Parsing Expr
  | 0 => fail alarm
  | bound + 1 => do
    let token ← peek 0
    let line := token.place.line
    match token.kind with
    | .math =>
      if token.text = "-" then
        let _ ← demand alarm fun sign => sign.kind = .math && sign.text = "-"
        return .negate line (← operandWithin bound)
      else unexpected
    | .number =>
      let _ ← demand alarm (·.kind = .number)
      return .number line (.ofText token.text.toList)
    | .string =>
      let _ ← demand alarm (·.kind = .string)
      return .string line token.text
    | .nullWord =>
      let _ ← demand alarm (·.kind = .nullWord)
      return .null line token.text
    | .leftParen => parenthesized alarm (tiers alarm (operandWithin bound))
    | .identifier => return .identifier (← identifier alarm)
    | _ => unexpected

def operand : Parsing Expr := do
  operandWithin alarm (← remaining)

def product : Parsing Expr := tier alarm .multiplicative (operand alarm)

def sum : Parsing Expr := tier alarm .additive (product alarm)

def expression : Parsing Expr := tier alarm .comparison (sum alarm)

/-- Only an end of file in front is an error of the block. Else its last token is meant to
close it. -/
def block (statement : Parsing Stmt) : Parsing Block := do
  let opening ← demand alarm (·.kind = .leftBrace)
  let body ← items alarm (· = .rightBrace) statement (← remaining)
  if (← peek 0).kind = .endOfFile then fail .unclosedBlock
  else
    let _ ← demand alarm (·.kind = .rightBrace)
    return .mk opening.place.line body

def otherwise (choice : Parsing Choice) (block : Parsing Block) : Parsing Otherwise := do
  if (← peek 0).kind = .elseWord then
    let _ ← demand alarm (·.kind = .elseWord)
    match (← peek 0).kind with
    | .ifWord => return .choice (← choice)
    | .leftBrace => return .block (← block)
    | _ => fail .elseWithoutBranch
  else return .nothing

def choice (statement : Parsing Stmt) : Nat → Parsing Choice
  | 0 => fail alarm
  | bound + 1 => do
    let word ← demand alarm (·.kind = .ifWord)
    expect .leftParen .missingCondition
    let condition ← parenthesized alarm (expression alarm)
    expect .leftBrace .missingBody
    match condition.comparison? with
    | none => throw ⟨.conditionWithoutComparison, word.place⟩
    | some comparison =>
      let body ← block alarm statement
      let otherwise ← otherwise alarm (choice statement bound) (block alarm statement)
      return .mk word.place.line comparison body otherwise

def printStatement : Parsing Stmt := do
  let word ← demand alarm (·.kind = .printWord)
  let value ← expression alarm
  semicolon
  return .print word.place.line value

def expression? : Parsing (Option Expr) := do
  if (← peek 0).kind = .semicolon then return none else return some (← expression alarm)

def returnStatement : Parsing Stmt := do
  let word ← demand alarm (·.kind = .returnWord)
  let value ← expression? alarm
  semicolon
  return .return word.place.line value

def assignment : Parsing Assignment := do
  expect .identifier .badAssignment
  let target ← identifier alarm
  let _ ← demand alarm (·.kind = .assign)
  let value ← expression alarm
  return ⟨target.line, target, value⟩

def declaration : Parsing Declaration := do
  let word ← demand alarm (·.kind = .letWord)
  if (← peek 0).kind = .identifier && (← peek 1).kind = .assign then
    let init ← assignment alarm
    semicolon
    return ⟨word.place.line, init.target, init⟩
  else fail .badDeclaration

def assignmentOrExpression : Parsing Stmt := do
  if (← peek 1).kind = .assign then return .assignment (← assignment alarm)
  else return .expression (← expression alarm)

def simpleStatement : Parsing Stmt := do
  let statement ← assignmentOrExpression alarm
  semicolon
  return statement

def statementWithin : Nat → Parsing Stmt
  | 0 => fail alarm
  | bound + 1 => do
    match (← peek 0).kind with
    | .leftBrace => return .block (← block alarm (statementWithin bound))
    | .ifWord => return .choice (← choice alarm (statementWithin bound) (bound + 1))
    | .printWord => printStatement alarm
    | .returnWord => returnStatement alarm
    | .letWord => return .declaration (← declaration alarm)
    | _ => simpleStatement alarm

def statement : Parsing Stmt := do
  statementWithin alarm (← remaining)

def program : Parsing Program := do
  return ⟨← items alarm (fun _ => false) (statement alarm) (← remaining)⟩

end Rech.Parsing.Wary
