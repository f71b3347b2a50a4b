import Rech.Proofs.Grammar.Statement

/-!
# The grammar and lines

The tree that tokens spell depends on the places of the tokens in its lines
only. `mapLine` takes a derivation to tokens that stand elsewhere, and
`exists_mapLine` finds the lines that a derivation without them leaves open.
-/

namespace Rech

variable {anchor other : Token → Option Int} {f : Option Int → Option Int} {g : Token → Token}

/-- Tokens that differ in their places only, with lines that follow. -/
structure Token.Moves (anchor other : Token → Option Int) (f : Option Int → Option Int)
    (g : Token → Token) : Prop where
  kind : ∀ token, (g token).kind = token.kind
  text : ∀ token, (g token).text = token.text
  line : ∀ token, other (g token) = f (anchor token)

theorem Level.has_of_moves (h : Token.Moves anchor other f g) (level : Level) (token : Token) :
    level.Has (g token) ↔ level.Has token := by
  cases level <;> simp only [Has, h.kind, h.text]

theorem Level.mapLine_node (level : Level) (line : Option Int) (l : Expr) (operator : String)
    (r : Expr) : (level.node line l operator r).mapLine f =
      level.node (f line) (l.mapLine f) operator (r.mapLine f) := by
  cases level <;> rfl

theorem Expr.Derives.mapLine (hm : Token.Moves anchor other f g)
    (h : Expr.Derives anchor levels w e) :
    Expr.Derives other levels (w.map g) (e.mapLine f) := by
  induction h with
  | @number token kind =>
    have : Derives other [] [g token] _ := .number ((hm.kind _).trans kind)
    rwa [hm.line, hm.text] at this
  | @string token kind =>
    have : Derives other [] [g token] _ := .string ((hm.kind _).trans kind)
    rwa [hm.line, hm.text] at this
  | @null token kind =>
    have : Derives other [] [g token] _ := .null ((hm.kind _).trans kind)
    rwa [hm.line, hm.text] at this
  | @identifier token kind =>
    have : Derives other [] [g token] _ := .identifier ((hm.kind _).trans kind)
    rwa [hm.line, hm.text] at this
  | negate kind text _ ih =>
    have := Derives.negate ((hm.kind _).trans kind) ((hm.text _).trans text) ih
    rwa [hm.line] at this
  | parenthesized left _ right ih =>
    have := Derives.parenthesized ((hm.kind _).trans left) ih ((hm.kind _).trans right)
    simpa using this
  | single _ ih => exact .single ih
  | @applied v l w r tighter level sign _ operator _ ihl ihr =>
    have := Derives.applied ihl ((Level.has_of_moves hm level sign).2 operator) ihr
    rw [hm.line, hm.text, ← Level.mapLine_node] at this
    simpa using this

theorem Expr.Derives.exists_mapLine (hf : ∀ token, other token = f (anchor token))
    (h : Expr.Derives other levels w e) :
    ∃ d, Expr.Derives anchor levels w d ∧ d.mapLine f = e := by
  induction h with
  | number kind => exact ⟨_, .number kind, by rw [hf]; rfl⟩
  | string kind => exact ⟨_, .string kind, by rw [hf]; rfl⟩
  | null kind => exact ⟨_, .null kind, by rw [hf]; rfl⟩
  | identifier kind => exact ⟨_, .identifier kind, by rw [hf]; rfl⟩
  | negate kind text _ ih =>
    obtain ⟨d, hd, rfl⟩ := ih
    exact ⟨_, .negate kind text hd, by rw [hf]; rfl⟩
  | parenthesized left _ right ih =>
    obtain ⟨d, hd, rfl⟩ := ih
    exact ⟨d, .parenthesized left hd right, rfl⟩
  | single _ ih =>
    obtain ⟨d, hd, rfl⟩ := ih
    exact ⟨d, .single hd, rfl⟩
  | applied _ operator _ ihl ihr =>
    obtain ⟨l, hl, rfl⟩ := ihl
    obtain ⟨r, hr, rfl⟩ := ihr
    refine ⟨_, .applied hl operator hr, ?_⟩
    rw [Level.mapLine_node, hf]

theorem Assignment.Derives.mapLine (hm : Token.Moves anchor other f g)
    (h : Assignment.Derives anchor w a) : Assignment.Derives other (w.map g) (a.mapLine f) := by
  cases h with
  | mk target equals value =>
    have := Derives.mk ((hm.kind _).trans target) ((hm.kind _).trans equals)
      (value.mapLine hm)
    rwa [hm.line, hm.text] at this

theorem Assignment.Derives.exists_mapLine (hf : ∀ token, other token = f (anchor token))
    (h : Assignment.Derives other w a) :
    ∃ d, Assignment.Derives anchor w d ∧ d.mapLine f = a := by
  cases h with
  | mk target equals value =>
    obtain ⟨d, hd, rfl⟩ := value.exists_mapLine hf
    exact ⟨_, .mk target equals hd, by rw [hf]; rfl⟩

theorem Comparison.mapLine_toExpr (condition : Comparison) :
    condition.toExpr.mapLine f = (condition.mapLine f).toExpr := rfl

mutual
theorem Stmt.Derives.mapLine (hm : Token.Moves anchor other f g) {w : List Token} {s : Stmt} :
    Stmt.Derives anchor w s → Stmt.Derives other (w.map g) (s.mapLine f)
  | .block inner => .block (inner.mapLine hm)
  | .choice first => .choice (first.mapLine hm)
  | .print keyword value ended => by
    have := Stmt.Derives.print ((hm.kind _).trans keyword) (value.mapLine hm)
      ((hm.kind _).trans ended)
    rw [hm.line] at this
    simpa [Stmt.mapLine] using this
  | @Stmt.Derives.returnNothing _ word closing keyword ended => by
    have : Stmt.Derives other [g word, g closing] _ :=
      .returnNothing ((hm.kind _).trans keyword) ((hm.kind _).trans ended)
    rwa [hm.line] at this
  | .returnValue keyword value ended => by
    have := Stmt.Derives.returnValue ((hm.kind _).trans keyword) (value.mapLine hm)
      ((hm.kind _).trans ended)
    rw [hm.line] at this
    simpa [Stmt.mapLine] using this
  | .declaration keyword init ended => by
    have := Stmt.Derives.declaration ((hm.kind _).trans keyword) (init.mapLine hm)
      ((hm.kind _).trans ended)
    rw [hm.line] at this
    simpa [Stmt.mapLine, Declaration.mapLine, Assignment.mapLine] using this
  | .assignment assigned ended => by
    have := Stmt.Derives.assignment (assigned.mapLine hm) ((hm.kind _).trans ended)
    simpa [Stmt.mapLine] using this
  | .expression value ended => by
    have := Stmt.Derives.expression (value.mapLine hm) ((hm.kind _).trans ended)
    simpa [Stmt.mapLine] using this

theorem Block.Derives.mapLine (hm : Token.Moves anchor other f g) {w : List Token} {b : Block} :
    Block.Derives anchor w b → Block.Derives other (w.map g) (b.mapLine f)
  | .mk left body right => by
    have := Block.Derives.mk ((hm.kind _).trans left) (body.mapLine hm) ((hm.kind _).trans right)
    rw [hm.line] at this
    simpa [Block.mapLine] using this

theorem Choice.Derives.mapLine (hm : Token.Moves anchor other f g) {w : List Token} {c : Choice} :
    Choice.Derives anchor w c → Choice.Derives other (w.map g) (c.mapLine f)
  | .mk keyword left compared right body otherwise => by
    have hcompared := compared.mapLine hm
    rw [Comparison.mapLine_toExpr] at hcompared
    have := Choice.Derives.mk ((hm.kind _).trans keyword) ((hm.kind _).trans left) hcompared
      ((hm.kind _).trans right) (body.mapLine hm) (otherwise.mapLine hm)
    rw [hm.line] at this
    simpa [Choice.mapLine] using this

theorem Otherwise.Derives.mapLine (hm : Token.Moves anchor other f g) {w : List Token}
    {o : Otherwise} :
    Otherwise.Derives anchor w o → Otherwise.Derives other (w.map g) (o.mapLine f)
  | .nothing => .nothing
  | .block keyword chosen => .block ((hm.kind _).trans keyword) (chosen.mapLine hm)
  | .choice keyword chosen => .choice ((hm.kind _).trans keyword) (chosen.mapLine hm)

theorem Stmt.DerivesAll.mapLine (hm : Token.Moves anchor other f g) {w : List Token}
    {body : List Stmt} :
    Stmt.DerivesAll anchor w body → Stmt.DerivesAll other (w.map g) (Stmt.mapLines f body)
  | .nil => .nil
  | .cons first others => by
    have := Stmt.DerivesAll.cons (first.mapLine hm) (others.mapLine hm)
    simpa [Stmt.mapLines] using this
end

theorem Comparison.exists_of_mapLine {e : Expr} {condition : Comparison}
    (h : e.mapLine f = condition.toExpr) :
    ∃ c : Comparison, e = c.toExpr ∧ c.mapLine f = condition := by
  cases e with
  | comparison line left operator right =>
    cases condition
    simp only [Expr.mapLine, toExpr, Expr.comparison.injEq] at h
    obtain ⟨rfl, rfl, rfl, rfl⟩ := h
    exact ⟨⟨line, left, operator, right⟩, rfl, rfl⟩
  | _ => simp [Expr.mapLine, toExpr] at h

mutual
theorem Stmt.Derives.exists_mapLine (hf : ∀ token, other token = f (anchor token))
    {w : List Token} {s : Stmt} :
    Stmt.Derives other w s → ∃ d, Stmt.Derives anchor w d ∧ d.mapLine f = s
  | .block inner => by
    obtain ⟨d, hd, rfl⟩ := inner.exists_mapLine hf
    exact ⟨_, .block hd, rfl⟩
  | .choice first => by
    obtain ⟨d, hd, rfl⟩ := first.exists_mapLine hf
    exact ⟨_, .choice hd, rfl⟩
  | .print keyword value ended => by
    obtain ⟨d, hd, rfl⟩ := value.exists_mapLine hf
    exact ⟨_, .print keyword hd ended, by rw [hf]; rfl⟩
  | .returnNothing keyword ended => ⟨_, .returnNothing keyword ended, by rw [hf]; rfl⟩
  | .returnValue keyword value ended => by
    obtain ⟨d, hd, rfl⟩ := value.exists_mapLine hf
    exact ⟨_, .returnValue keyword hd ended, by rw [hf]; rfl⟩
  | .declaration keyword init ended => by
    obtain ⟨d, hd, rfl⟩ := init.exists_mapLine hf
    exact ⟨_, .declaration keyword hd ended, by rw [hf]; rfl⟩
  | .assignment assigned ended => by
    obtain ⟨d, hd, rfl⟩ := assigned.exists_mapLine hf
    exact ⟨_, .assignment hd ended, rfl⟩
  | .expression value ended => by
    obtain ⟨d, hd, rfl⟩ := value.exists_mapLine hf
    exact ⟨_, .expression hd ended, rfl⟩

theorem Block.Derives.exists_mapLine (hf : ∀ token, other token = f (anchor token))
    {w : List Token} {b : Block} :
    Block.Derives other w b → ∃ d, Block.Derives anchor w d ∧ d.mapLine f = b
  | .mk left body right => by
    obtain ⟨d, hd, rfl⟩ := body.exists_mapLine hf
    exact ⟨_, .mk left hd right, by rw [hf]; rfl⟩

theorem Choice.Derives.exists_mapLine (hf : ∀ token, other token = f (anchor token))
    {w : List Token} {c : Choice} :
    Choice.Derives other w c → ∃ d, Choice.Derives anchor w d ∧ d.mapLine f = c
  | .mk keyword left compared right body otherwise => by
    obtain ⟨d, hd, hcompared⟩ := compared.exists_mapLine hf
    obtain ⟨condition, rfl, rfl⟩ := Comparison.exists_of_mapLine hcompared
    obtain ⟨b, hb, rfl⟩ := body.exists_mapLine hf
    obtain ⟨o, ho, rfl⟩ := otherwise.exists_mapLine hf
    exact ⟨_, .mk keyword left hd right hb ho, by rw [hf]; rfl⟩

theorem Otherwise.Derives.exists_mapLine (hf : ∀ token, other token = f (anchor token))
    {w : List Token} {o : Otherwise} :
    Otherwise.Derives other w o → ∃ d, Otherwise.Derives anchor w d ∧ d.mapLine f = o
  | .nothing => ⟨_, .nothing, rfl⟩
  | .block keyword chosen => by
    obtain ⟨d, hd, rfl⟩ := chosen.exists_mapLine hf
    exact ⟨_, .block keyword hd, rfl⟩
  | .choice keyword chosen => by
    obtain ⟨d, hd, rfl⟩ := chosen.exists_mapLine hf
    exact ⟨_, .choice keyword hd, rfl⟩

theorem Stmt.DerivesAll.exists_mapLine (hf : ∀ token, other token = f (anchor token))
    {w : List Token} {body : List Stmt} :
    Stmt.DerivesAll other w body → ∃ d, Stmt.DerivesAll anchor w d ∧ Stmt.mapLines f d = body
  | .nil => ⟨_, .nil, rfl⟩
  | .cons first others => by
    obtain ⟨d, hd, rfl⟩ := first.exists_mapLine hf
    obtain ⟨rest, hrest, rfl⟩ := others.exists_mapLine hf
    exact ⟨_, .cons hd hrest, rfl⟩
end

end Rech
