import Rech.Binary64.Decimal
import Rech.Proofs.Token.Writing
import Rech.Tree.Basic

/-!
# Trees as words

A tree is written with parentheses only where the text would be read as another
tree without them: around a left operand that binds weaker than its operator,
around a right operand that does not bind stronger, and around an operation
that a sign is put before. Not every tree can be written. `WellFormed` asks for
the names, literals and operators of the language.
-/

namespace Rech

open Token (Word)

/-- A way to write numbers: for each one that a numeral means, such a numeral. -/
structure Numerals where
  write : Binary64 → String
  numeral : ∀ text, Token.IsNumeral text → Token.IsNumeral (write (.ofText text.toList))
  reads : ∀ text, Token.IsNumeral text →
    .ofText (write (.ofText text.toList)).toList = Binary64.ofText text.toList

open Classical in
noncomputable def Numerals.chosen : Numerals where
  write value :=
    if h : ∃ text, Token.IsNumeral text ∧ value = .ofText text.toList then h.choose else ""
  numeral text htext := by
    have h : ∃ other, Token.IsNumeral other ∧
        Binary64.ofText text.toList = .ofText other.toList := ⟨text, htext, rfl⟩
    rw [dif_pos h]
    exact h.choose_spec.1
  reads text htext := by
    have h : ∃ other, Token.IsNumeral other ∧
        Binary64.ofText text.toList = .ofText other.toList := ⟨text, htext, rfl⟩
    rw [dif_pos h]
    exact h.choose_spec.2.symm

namespace Token.Word

def ifWord : Word := ⟨.ifWord, "если"⟩
def elseWord : Word := ⟨.elseWord, "иначе"⟩
def printWord : Word := ⟨.printWord, "напечатать"⟩
def returnWord : Word := ⟨.returnWord, "вернуть"⟩
def letWord : Word := ⟨.letWord, "пусть"⟩
def assign : Word := ⟨.assign, "="⟩
def minus : Word := ⟨.math, "-"⟩
def semicolon : Word := ⟨.semicolon, ";"⟩
def leftParen : Word := ⟨.leftParen, "("⟩
def rightParen : Word := ⟨.rightParen, ")"⟩
def leftBrace : Word := ⟨.leftBrace, "\x7b"⟩
def rightBrace : Word := ⟨.rightBrace, "\x7d"⟩

def enclosed (needed : Bool) (words : List Word) : List Word :=
  if needed then leftParen :: (words ++ [rightParen]) else words

end Token.Word

-- ---------------------------------------------------------------------------
-- Words
-- ---------------------------------------------------------------------------

/-- Sums bind weaker than products. -/
def Expr.rankOf (operator : String) : Nat := if operator ∈ ["+", "-"] then 2 else 1

/-- How weakly an expression binds. -/
def Expr.rank : Expr → Nat
  | .comparison .. => 3
  | .math _ _ operator _ => rankOf operator
  | _ => 0

section
variable (numerals : Numerals)

def Expr.words : Expr → List Word
  | .identifier name => [⟨.identifier, name.symbol⟩]
  | .number _ value => [⟨.number, numerals.write value⟩]
  | .string _ text => [⟨.string, text⟩]
  | .null _ spelling => [⟨.nullWord, spelling⟩]
  | .negate _ operand => .minus :: Word.enclosed (0 < operand.rank) operand.words
  | .math _ left operator right =>
    Word.enclosed (rankOf operator < left.rank) left.words ++
      ⟨.math, operator⟩ :: Word.enclosed (rankOf operator ≤ right.rank) right.words
  | .comparison _ left operator right =>
    Word.enclosed (3 < left.rank) left.words ++
      ⟨.comparison, operator⟩ :: Word.enclosed (3 ≤ right.rank) right.words
  | .foreign .. => []

def Assignment.words (assigned : Assignment) : List Word :=
  ⟨.identifier, assigned.target.symbol⟩ :: .assign :: assigned.value.words numerals

mutual
def Stmt.words : Stmt → List Word
  | .block inner => inner.words
  | .choice first => first.words
  | .print _ value => .printWord :: (value.words numerals ++ [.semicolon])
  | .return _ none => [.returnWord, .semicolon]
  | .return _ (some value) => .returnWord :: (value.words numerals ++ [.semicolon])
  | .declaration declared => .letWord :: (declared.init.words numerals ++ [.semicolon])
  | .assignment assigned => assigned.words numerals ++ [.semicolon]
  | .expression value => value.words numerals ++ [.semicolon]

def Block.words : Block → List Word
  | .mk _ body => .leftBrace :: (Stmt.allWords body ++ [.rightBrace])

def Choice.words : Choice → List Word
  | .mk _ condition body otherwise =>
    .ifWord :: .leftParen :: (condition.toExpr.words numerals ++
      .rightParen :: (body.words ++ otherwise.words))

def Otherwise.words : Otherwise → List Word
  | .nothing => []
  | .block chosen => .elseWord :: chosen.words
  | .choice chosen => .elseWord :: chosen.words

def Stmt.allWords : List Stmt → List Word
  | [] => []
  | statement :: others => statement.words ++ Stmt.allWords others
end

def Program.words (program : Program) : List Word := Stmt.allWords numerals program.body

def Program.text (program : Program) : List Char := Word.spaced (program.words numerals)

end

-- ---------------------------------------------------------------------------
-- Trees that can be written
-- ---------------------------------------------------------------------------

def Expr.WellFormed : Expr → Prop
  | .identifier name => Token.IsName name.symbol
  | .number _ value => ∃ text, Token.IsNumeral text ∧ value = .ofText text.toList
  | .string _ text => Token.IsLiteral text
  | .null _ spelling => spelling = "ничто"
  | .negate _ operand => operand.WellFormed
  | .math _ left operator right =>
    operator ∈ ["+", "-", "*", "/", "%"] ∧ left.WellFormed ∧ right.WellFormed
  | .comparison _ left operator right =>
    operator ∈ ["==", "===", "<", ">", "<=", ">=", "!=", "!=="] ∧ left.WellFormed ∧
      right.WellFormed
  | .foreign .. => False

structure Assignment.WellFormed (assigned : Assignment) : Prop where
  target : Token.IsName assigned.target.symbol
  value : assigned.value.WellFormed

/-- A declaration gives its first value to the name it declares. -/
structure Declaration.WellFormed (declared : Declaration) : Prop where
  init : declared.init.WellFormed
  same : declared.init.target.symbol = declared.identifier.symbol

mutual
def Stmt.WellFormed : Stmt → Prop
  | .block inner => inner.WellFormed
  | .choice first => first.WellFormed
  | .print _ value => value.WellFormed
  | .return _ value => ∀ e ∈ value, e.WellFormed
  | .declaration declared => declared.WellFormed
  | .assignment assigned => assigned.WellFormed
  | .expression value => value.WellFormed

def Block.WellFormed : Block → Prop
  | .mk _ body => Stmt.AllWellFormed body

def Choice.WellFormed : Choice → Prop
  | .mk _ condition body otherwise =>
    condition.toExpr.WellFormed ∧ body.WellFormed ∧ otherwise.WellFormed

def Otherwise.WellFormed : Otherwise → Prop
  | .nothing => True
  | .block chosen => chosen.WellFormed
  | .choice chosen => chosen.WellFormed

def Stmt.AllWellFormed : List Stmt → Prop
  | [] => True
  | statement :: others => statement.WellFormed ∧ Stmt.AllWellFormed others
end

def Program.WellFormed (program : Program) : Prop := Stmt.AllWellFormed program.body

end Rech
