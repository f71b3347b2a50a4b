import Rech.Proofs.Parsing.Placing

/-!
# The tokens that nodes stand at

Each node of a tree stands at a token of its own, and down the text of a program
nodes and tokens come in the same order. The tokens that no node stands at are
parentheses, closing braces, semicolons and the signs and words between the parts of
a statement. An assignment shares its token with the identifier it gives a value.
-/

namespace Rech

/-- The nodes with a token of their own. -/
inductive Node where
  | expression (value : Expr)
  | assignment (assigned : Assignment)
  | declaration (declared : Declaration)
  | print (line : Option Int) (value : Expr)
  | return (line : Option Int) (value : Option Expr)
  | block (inner : Block)
  | choice (one : Choice)

namespace Node

inductive StandsAt (anchor : Token → Option Int) : Node → Token → Prop
  | number {token : Token} (kind : token.kind = .number) :
      StandsAt anchor (.expression (.number (anchor token) (.ofText token.text.toList))) token
  | string {token : Token} (kind : token.kind = .string) :
      StandsAt anchor (.expression (.string (anchor token) token.text)) token
  | null {token : Token} (kind : token.kind = .nullWord) :
      StandsAt anchor (.expression (.null (anchor token) token.text)) token
  | identifier {token : Token} (kind : token.kind = .identifier) :
      StandsAt anchor (.expression (.identifier ⟨anchor token, token.text⟩)) token
  | negate {sign : Token} (kind : sign.kind = .math) (text : sign.text = "-") :
      StandsAt anchor (.expression (.negate (anchor sign) e)) sign
  | math {sign : Token} (kind : sign.kind = .math) :
      StandsAt anchor (.expression (.math (anchor sign) l sign.text r)) sign
  | comparison {sign : Token} (kind : sign.kind = .comparison) :
      StandsAt anchor (.expression (.comparison (anchor sign) l sign.text r)) sign
  | assignment {name : Token} (kind : name.kind = .identifier) :
      StandsAt anchor (.assignment ⟨anchor name, ⟨anchor name, name.text⟩, e⟩) name
  | declaration {word : Token} (kind : word.kind = .letWord) :
      StandsAt anchor (.declaration ⟨anchor word, init.target, init⟩) word
  | print {word : Token} (kind : word.kind = .printWord) :
      StandsAt anchor (.print (anchor word) e) word
  | return {word : Token} (kind : word.kind = .returnWord) :
      StandsAt anchor (.return (anchor word) value) word
  | block {opening : Token} (kind : opening.kind = .leftBrace) :
      StandsAt anchor (.block (.mk (anchor opening) body)) opening
  | choice {word : Token} (kind : word.kind = .ifWord) :
      StandsAt anchor (.choice (.mk (anchor word) condition body otherwise)) word

def lines : Node → List (Option Int)
  | .expression value => [value.line]
  | .assignment assigned => [assigned.line, assigned.target.line]
  | .declaration declared => [declared.line]
  | .print line _ | .return line _ => [line]
  | .block inner => [inner.line]
  | .choice one => [one.line]

theorem StandsAt.line {anchor : Token → Option Int} (h : StandsAt anchor node token) :
    ∀ line ∈ node.lines, line = anchor token := by
  cases h <;> simp [lines, Expr.line, Block.line, Choice.line]

end Node

-- ---------------------------------------------------------------------------
-- The nodes of a tree
-- ---------------------------------------------------------------------------

/-- The nodes of a tree in the order of its text. -/
def Expr.nodes : Expr → List Node
  | .negate line operand => .expression (.negate line operand) :: operand.nodes
  | .math line left operator right =>
    left.nodes ++ .expression (.math line left operator right) :: right.nodes
  | .comparison line left operator right =>
    left.nodes ++ .expression (.comparison line left operator right) :: right.nodes
  | value => [.expression value]

def Assignment.nodes (assigned : Assignment) : List Node :=
  .assignment assigned :: assigned.value.nodes

mutual
def Stmt.nodes : Stmt → List Node
  | .block inner => inner.nodes
  | .choice first => first.nodes
  | .print line value => .print line value :: value.nodes
  | .return line none => [.return line none]
  | .return line (some value) => .return line (some value) :: value.nodes
  | .declaration declared => .declaration declared :: declared.init.nodes
  | .assignment assigned => assigned.nodes
  | .expression value => value.nodes

def Block.nodes : Block → List Node
  | .mk line body => .block (.mk line body) :: Stmt.allNodes body

def Choice.nodes : Choice → List Node
  | .mk line condition body otherwise =>
    .choice (.mk line condition body otherwise) ::
      (condition.toExpr.nodes ++ (body.nodes ++ otherwise.nodes))

def Otherwise.nodes : Otherwise → List Node
  | .nothing => []
  | .block chosen => chosen.nodes
  | .choice chosen => chosen.nodes

def Stmt.allNodes : List Stmt → List Node
  | [] => []
  | statement :: others => statement.nodes ++ Stmt.allNodes others
end

def Program.nodes (program : Program) : List Node := Stmt.allNodes program.body

-- ---------------------------------------------------------------------------
-- Nodes and tokens in turn
-- ---------------------------------------------------------------------------

/-- The kinds of the tokens that a node stands at. -/
def Token.Kind.anchors : Token.Kind → Bool
  | .number | .string | .nullWord | .identifier | .math | .comparison | .leftBrace | .ifWord
  | .printWord | .returnWord | .letWord => true
  | _ => false

def Token.anchoring (w : List Token) : List Token := w.filter (·.kind.anchors)

namespace Token

theorem anchoring_append (v w : List Token) : anchoring (v ++ w) = anchoring v ++ anchoring w :=
  List.filter_append v w

theorem anchoring_cons (h : token.kind.anchors = true) (w : List Token) :
    anchoring (token :: w) = token :: anchoring w :=
  List.filter_cons_of_pos h

theorem anchoring_skip (h : token.kind.anchors = false) (w : List Token) :
    anchoring (token :: w) = anchoring w :=
  List.filter_cons_of_neg (by simp [h])

theorem anchoring_closed (h : closing.kind.anchors = false) (w : List Token) :
    anchoring (w ++ [closing]) = anchoring w := by
  rw [anchoring_append, anchoring_skip h]
  exact List.append_nil _

end Token

open Token (anchoring anchoring_append anchoring_cons anchoring_skip anchoring_closed)

variable {anchor : Token → Option Int}

abbrev Node.Aligned (anchor : Token → Option Int) (nodes : List Node) (w : List Token) : Prop :=
  List.Forall₂ (Node.StandsAt anchor) nodes (anchoring w)

theorem Node.Aligned.append (h : Aligned anchor nodes v) (h' : Aligned anchor others w) :
    Aligned anchor (nodes ++ others) (v ++ w) := by
  rw [Aligned, anchoring_append]
  exact List.rel_append h h'

theorem Node.Aligned.cons (h : StandsAt anchor node token) (h' : Aligned anchor nodes w) :
    Aligned anchor (node :: nodes) (token :: w) := by
  have hkind : token.kind.anchors = true := by
    cases h <;> simp [*, Token.Kind.anchors]
  rw [Aligned, anchoring_cons hkind]
  exact .cons h h'

theorem Node.Aligned.skip (h : Aligned anchor nodes w) (hkind : token.kind.anchors = false) :
    Aligned anchor nodes (token :: w) := by
  rwa [Aligned, anchoring_skip hkind]

theorem Node.Aligned.closed (h : Aligned anchor nodes w) (hkind : closing.kind.anchors = false) :
    Aligned anchor nodes (w ++ [closing]) := by
  rwa [Aligned, anchoring_closed hkind]

open Node (Aligned)

theorem Level.aligned_node {level : Level} {sign : Token} (operator : level.Has sign)
    (left : Aligned anchor l.nodes v) (right : Aligned anchor r.nodes w) :
    Aligned anchor (level.node (anchor sign) l sign.text r).nodes (v ++ sign :: w) := by
  cases level with
  | comparison => exact left.append (.cons (.comparison operator.1) right)
  | additive | multiplicative => exact left.append (.cons (.math operator.1) right)

theorem Expr.Derives.aligned (h : Expr.Derives anchor levels w e) :
    Aligned anchor e.nodes w := by
  induction h with
  | number kind => exact .cons (.number kind) .nil
  | string kind => exact .cons (.string kind) .nil
  | null kind => exact .cons (.null kind) .nil
  | identifier kind => exact .cons (.identifier kind) .nil
  | negate kind text _ ih => exact .cons (.negate kind text) ih
  | parenthesized left _ right ih =>
    exact (ih.closed (by rw [right]; rfl)).skip (by rw [left]; rfl)
  | single _ ih => exact ih
  | applied _ operator _ ihl ihr => exact Level.aligned_node operator ihl ihr

theorem Assignment.Derives.aligned (h : Assignment.Derives anchor w a) :
    Aligned anchor a.nodes w := by
  cases h with
  | mk target equals value =>
    exact .cons (.assignment target) (value.aligned.skip (by rw [equals]; rfl))

mutual
theorem Stmt.Derives.aligned : Stmt.Derives anchor w s → Aligned anchor s.nodes w
  | .block inner => inner.aligned
  | .choice first => first.aligned
  | .print keyword value ended =>
    .cons (.print keyword) (value.aligned.closed (by rw [ended]; rfl))
  | .returnNothing keyword ended =>
    .cons (.return keyword) (Aligned.skip .nil (by rw [ended]; rfl))
  | .returnValue keyword value ended =>
    .cons (.return keyword) (value.aligned.closed (by rw [ended]; rfl))
  | .declaration keyword init ended =>
    .cons (.declaration keyword) (init.aligned.closed (by rw [ended]; rfl))
  | .assignment assigned ended => assigned.aligned.closed (by rw [ended]; rfl)
  | .expression value ended => value.aligned.closed (by rw [ended]; rfl)

theorem Block.Derives.aligned : Block.Derives anchor w b → Aligned anchor b.nodes w
  | .mk left body right => .cons (.block left) (body.aligned.closed (by rw [right]; rfl))

theorem Choice.Derives.aligned : Choice.Derives anchor w c → Aligned anchor c.nodes w
  | .mk keyword left compared right body otherwise =>
    have hrest := (body.aligned.append otherwise.aligned).skip (by rw [right]; rfl)
    .cons (.choice keyword)
      ((compared.aligned.append hrest).skip (by rw [left]; rfl))

theorem Otherwise.Derives.aligned : Otherwise.Derives anchor w o → Aligned anchor o.nodes w
  | .nothing => .nil
  | .block keyword chosen => chosen.aligned.skip (by rw [keyword]; rfl)
  | .choice keyword chosen => chosen.aligned.skip (by rw [keyword]; rfl)

theorem Stmt.DerivesAll.aligned : Stmt.DerivesAll anchor w body →
    Aligned anchor (Stmt.allNodes body) w
  | .nil => .nil
  | .cons first others => first.aligned.append others.aligned
end

theorem Node.lines_ne_none (h : List.Forall₂ (StandsAt Token.line) nodes w) :
    ∀ node ∈ nodes, ∀ line ∈ node.lines, line ≠ none := by
  induction h with
  | nil => exact List.forall_mem_nil _
  | cons first _ ih =>
    refine List.forall_mem_cons.2 ⟨fun line hline => ?_, ih⟩
    rw [first.line line hline]
    exact Option.some_ne_none _

/-- The nodes of a program stand each at its token, with the line of that token, and
where the tokens stand matters to lines only. -/
theorem Program.anchored (tokens : List Token) :
    (∀ program, Program.ofTokens tokens = .ok program →
      List.Forall₂ (Node.StandsAt Token.line) program.nodes
        (anchoring (Token.beforeEnd tokens)) ∧
      ∀ node ∈ program.nodes, ∀ line ∈ node.lines, line ≠ none) ∧
    ∀ (f : Int → Int) (others : List Token), List.Forall₂ (Token.Moved f) tokens others →
      (∀ program, Program.ofTokens tokens = .ok program →
        Program.ofTokens others = .ok (program.mapLine (Option.map f))) ∧
      ∀ error, Program.ofTokens tokens = .error error →
        ∃ moved, Program.ofTokens others = .error moved ∧ error.Moved f moved := by
  refine ⟨fun program h => ?_, fun f others h => ofTokens_moved h⟩
  have hderives := (ofTokens_eq_ok_iff (Parsing.endsList_of_ofTokens h)).1 h
  have haligned := Stmt.DerivesAll.aligned hderives
  exact ⟨haligned, Node.lines_ne_none haligned⟩

end Rech
