import Rech.Proofs.Grammar.Parts
import Rech.Proofs.Grammar.Source
import Rech.Proofs.Run.Failing

/-!
# Programs that texts spell can be run

The operators of the levels are those that exist, conditions compare, and
every statement stands at a token. So a program that is read from a text has
nothing in it that no run can get past.
-/

namespace Rech

namespace Level

variable {level : Level} {token : Token} {l r : Expr}

theorem evaluable_node (operator : level.Has token) (hl : l.Evaluable) (hr : r.Evaluable)
    (line : Option Int) : (level.node line l token.text r).Evaluable := by
  cases level with
  | comparison =>
    have hsome : ∀ text ∈ ["==", "===", "<", ">", "<=", ">=", "!=", "!=="],
        (Value.comparisonOperation? text).isSome := by
      decide
    exact .comparison hl (hsome _ operator.2) hr
  | additive =>
    have hsome : ∀ text ∈ ["+", "-"], (Value.mathOperation? text).isSome := by decide
    exact .math hl (hsome _ operator.2) hr
  | multiplicative =>
    have hsome : ∀ text ∈ ["*", "/", "%"], (Value.mathOperation? text).isSome := by decide
    exact .math hl (hsome _ operator.2) hr

theorem line_node (level : Level) (line : Option Int) :
    (level.node line l spelling r).line = line := by
  cases level <;> rfl

end Level

namespace Expr.Derives

variable {anchor : Token → Option Int}

theorem evaluable (h : Derives anchor levels w e) : e.Evaluable := by
  induction h with
  | number => exact .number
  | string => exact .string
  | null => exact .null
  | identifier => exact .identifier
  | negate _ _ _ ih => exact .negate ih
  | parenthesized _ _ _ ih | single _ ih => exact ih
  | applied _ operator _ ihl ihr => exact Level.evaluable_node operator ihl ihr _

theorem exists_line (h : Derives anchor levels w e) :
    ∃ token ∈ w, e.line = anchor token := by
  induction h with
  | number | string | null | identifier => exact ⟨_, List.mem_cons_self, rfl⟩
  | negate => exact ⟨_, List.mem_cons_self, rfl⟩
  | parenthesized _ _ _ ih =>
    obtain ⟨token, hmem, hline⟩ := ih
    exact ⟨token, by simp [hmem], hline⟩
  | single _ ih => exact ih
  | @applied _ _ _ _ _ _ sign =>
    exact ⟨sign, by simp, Level.line_node ..⟩

end Expr.Derives

theorem Stmt.Derives.runnable (h : Stmt.Derives Token.line w s) : s.Runnable where
  line := by
    cases h with
    | block inner | choice inner | assignment inner => cases inner; rfl
    | print | returnNothing | returnValue | declaration => rfl
    | expression value =>
      obtain ⟨token, -, hline⟩ := value.exists_line
      rw [Stmt.line, hline]
      rfl
  evaluable e hmem := by
    obtain ⟨v, -, hd⟩ := h.part e hmem
    exact hd.evaluable

theorem Program.runnable_ofSource {source : List Char} {program : Program}
    (h : Program.ofSource source = .ok program) : ∀ s ∈ program.statements, s.Runnable := by
  intro s hmem
  obtain ⟨tokens, -, hd⟩ := Program.ofSource_eq_ok_iff.1 h
  obtain ⟨v, -, hs⟩ := Stmt.DerivesAll.statements hd s hmem
  exact hs.runnable

end Rech
