import Rech.Proofs.Grammar.Expression

/-!
# The grammar of statements

One relation for each kind of phrase. A statement is a block, a choice, or a
phrase that a semicolon ends. A condition is an expression in parentheses that
compares, and what is chosen otherwise is a block or another choice. Nothing
else is a statement, so the tokens of a program are cut in one way only.
-/

namespace Rech

section
variable (anchor : Token → Option Int)

inductive Assignment.Derives : List Token → Assignment → Prop
  | mk {name sign : Token} (target : name.kind = .identifier) (equals : sign.kind = .assign)
      (value : Expr.Derives anchor Level.all w e) :
      Derives (name :: sign :: w) ⟨anchor name, ⟨anchor name, name.text⟩, e⟩

mutual
inductive Stmt.Derives : List Token → Stmt → Prop
  | block (inner : Block.Derives w b) : Stmt.Derives w (.block b)
  | choice (first : Choice.Derives w c) : Stmt.Derives w (.choice c)
  | print {word closing : Token} (keyword : word.kind = .printWord)
      (value : Expr.Derives anchor Level.all w e) (ended : closing.kind = .semicolon) :
      Stmt.Derives (word :: (w ++ [closing])) (.print (anchor word) e)
  | returnNothing {word closing : Token} (keyword : word.kind = .returnWord)
      (ended : closing.kind = .semicolon) :
      Stmt.Derives [word, closing] (.return (anchor word) none)
  | returnValue {word closing : Token} (keyword : word.kind = .returnWord)
      (value : Expr.Derives anchor Level.all w e) (ended : closing.kind = .semicolon) :
      Stmt.Derives (word :: (w ++ [closing])) (.return (anchor word) (some e))
  | declaration {word closing : Token} (keyword : word.kind = .letWord)
      (init : Assignment.Derives anchor w a) (ended : closing.kind = .semicolon) :
      Stmt.Derives (word :: (w ++ [closing])) (.declaration ⟨anchor word, a.target, a⟩)
  | assignment {closing : Token} (assigned : Assignment.Derives anchor w a)
      (ended : closing.kind = .semicolon) :
      Stmt.Derives (w ++ [closing]) (.assignment a)
  | expression {closing : Token} (value : Expr.Derives anchor Level.all w e)
      (ended : closing.kind = .semicolon) :
      Stmt.Derives (w ++ [closing]) (.expression e)

inductive Block.Derives : List Token → Block → Prop
  | mk {opening closing : Token} (left : opening.kind = .leftBrace)
      (body : Stmt.DerivesAll w statements) (right : closing.kind = .rightBrace) :
      Block.Derives (opening :: (w ++ [closing])) (.mk (anchor opening) statements)

inductive Choice.Derives : List Token → Choice → Prop
  | mk {word opening closing : Token} {condition : Comparison} (keyword : word.kind = .ifWord)
      (left : opening.kind = .leftParen)
      (compared : Expr.Derives anchor Level.all w condition.toExpr)
      (right : closing.kind = .rightParen) (body : Block.Derives v b)
      (otherwise : Otherwise.Derives u o) :
      Choice.Derives (word :: opening :: (w ++ closing :: (v ++ u)))
        (.mk (anchor word) condition b o)

inductive Otherwise.Derives : List Token → Otherwise → Prop
  | nothing : Otherwise.Derives [] .nothing
  | block {word : Token} (keyword : word.kind = .elseWord) (chosen : Block.Derives w b) :
      Otherwise.Derives (word :: w) (.block b)
  | choice {word : Token} (keyword : word.kind = .elseWord) (chosen : Choice.Derives w c) :
      Otherwise.Derives (word :: w) (.choice c)

inductive Stmt.DerivesAll : List Token → List Stmt → Prop
  | nil : Stmt.DerivesAll [] []
  | cons (first : Stmt.Derives v s) (others : Stmt.DerivesAll w rest) :
      Stmt.DerivesAll (v ++ w) (s :: rest)
end

end

theorem Expr.comparison?_eq_some {e : Expr} {condition : Comparison} :
    e.comparison? = some condition ↔ e = condition.toExpr := by
  cases e <;> cases condition <;> simp [comparison?, Comparison.toExpr, eq_comm]

def Token.Kind.beginsStatement : Token.Kind → Bool
  | .leftBrace | .ifWord | .printWord | .returnWord | .letWord => true
  | kind => kind.beginsExpression

theorem Token.Kind.beginsStatement_of_beginsExpression {kind : Token.Kind}
    (h : kind.beginsExpression = true) : kind.beginsStatement = true := by
  cases kind <;> simp_all [beginsExpression, beginsStatement]

/-- What may follow a statement. -/
def Token.NoElse (token : Token) : Prop := token.kind ≠ .elseWord

theorem Token.noElse_of_beginsStatement {token : Token}
    (h : token.kind.beginsStatement = true) : token.NoElse := by
  intro hk
  simp [hk, Token.Kind.beginsStatement, Token.Kind.beginsExpression] at h

theorem Block.Derives.exists_cons {anchor : Token → Option Int} (h : Block.Derives anchor w b) :
    ∃ token rest, w = token :: rest ∧ token.kind = .leftBrace := by
  cases h with
  | mk left => exact ⟨_, _, rfl, left⟩

theorem Choice.Derives.exists_cons {anchor : Token → Option Int} (h : Choice.Derives anchor w c) :
    ∃ token rest, w = token :: rest ∧ token.kind = .ifWord := by
  cases h with
  | mk keyword => exact ⟨_, _, rfl, keyword⟩

theorem Stmt.Derives.exists_cons {anchor : Token → Option Int} (h : Stmt.Derives anchor w s) :
    ∃ token rest, w = token :: rest ∧ token.kind.beginsStatement = true := by
  cases h with
  | block inner =>
    obtain ⟨token, rest, rfl, hk⟩ := inner.exists_cons
    exact ⟨token, rest, rfl, by rw [hk]; rfl⟩
  | choice first =>
    obtain ⟨token, rest, rfl, hk⟩ := first.exists_cons
    exact ⟨token, rest, rfl, by rw [hk]; rfl⟩
  | print keyword | returnNothing keyword | returnValue keyword | declaration keyword =>
    exact ⟨_, _, rfl, by rw [keyword]; rfl⟩
  | assignment assigned =>
    cases assigned with
    | mk target => exact ⟨_, _, rfl, by rw [target]; rfl⟩
  | expression value =>
    obtain ⟨token, rest, rfl, hk⟩ := value.exists_cons
    exact ⟨token, _, rfl, Token.Kind.beginsStatement_of_beginsExpression hk⟩

end Rech
