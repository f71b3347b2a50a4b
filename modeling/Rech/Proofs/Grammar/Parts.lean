import Rech.Proofs.Grammar.Statement
import Rech.Proofs.Tree.Statements

/-!
# Parts of a text and parts of its tree

Every statement of a tree is spelled by some of the tokens that spell the tree,
and so is every expression that a statement evaluates by itself. What holds of a
phrase because of its tokens can be shown for one phrase and then holds of all.
-/

namespace Rech

def Token.Part (P : List Token → Prop) (w : List Token) : Prop := ∃ v, v ⊆ w ∧ P v

theorem Token.Part.mono {P : List Token → Prop} (h : Part P v) (hvw : v ⊆ w) : Part P w := by
  obtain ⟨u, huv, hu⟩ := h
  exact ⟨u, List.Subset.trans huv hvw, hu⟩

open Token (Part)

variable {anchor : Token → Option Int}

-- ---------------------------------------------------------------------------
-- Expressions
-- ---------------------------------------------------------------------------

mutual
theorem Choice.Derives.part : Choice.Derives anchor w c → ∀ condition ∈ c.conditions,
    Part (fun v => Expr.Derives anchor Level.all v condition.toExpr) w
  | .mk _ _ compared _ _ otherwise => by
    rw [Choice.conditions]
    refine List.forall_mem_cons.2 ⟨⟨_, ?_, compared⟩, fun other hmem => ?_⟩
    · intro token htoken
      simp [htoken]
    · refine (otherwise.part other hmem).mono fun token htoken => ?_
      simp [htoken]

theorem Otherwise.Derives.part : Otherwise.Derives anchor w o → ∀ condition ∈ o.conditions,
    Part (fun v => Expr.Derives anchor Level.all v condition.toExpr) w
  | .nothing => List.forall_mem_nil _
  | .block _ _ => List.forall_mem_nil _
  | .choice _ chosen => fun other hmem =>
    (chosen.part other hmem).mono (List.subset_cons_self _ _)
end

theorem Assignment.Derives.part (h : Assignment.Derives anchor w a) :
    Part (fun v => Expr.Derives anchor Level.all v a.value) w := by
  cases h with
  | mk _ _ value => exact ⟨_, fun token htoken => by simp [htoken], value⟩

theorem Stmt.Derives.part (h : Stmt.Derives anchor w s) : ∀ e ∈ s.expressions,
    Part (fun v => Expr.Derives anchor Level.all v e) w := by
  cases h with
  | block | returnNothing => exact List.forall_mem_nil _
  | choice first =>
    rw [Stmt.expressions, List.forall_mem_map]
    exact first.part
  | print _ value | returnValue _ value | expression value =>
    exact List.forall_mem_singleton.2 ⟨_, fun token htoken => by simp [htoken], value⟩
  | declaration _ init =>
    exact List.forall_mem_singleton.2 (init.part.mono fun token htoken => by simp [htoken])
  | assignment assigned =>
    exact List.forall_mem_singleton.2 (assigned.part.mono fun token htoken => by simp [htoken])

-- ---------------------------------------------------------------------------
-- Statements
-- ---------------------------------------------------------------------------

mutual
theorem Stmt.Derives.inner : Stmt.Derives anchor w s → ∀ t ∈ s.inner,
    Part (fun v => Stmt.Derives anchor v t) w
  | .block b => b.statements
  | .choice first => first.statements
  | .print .. | .returnNothing .. | .returnValue .. | .declaration .. | .assignment ..
  | .expression .. => List.forall_mem_nil _

theorem Block.Derives.statements : Block.Derives anchor w b → ∀ t ∈ b.statements,
    Part (fun v => Stmt.Derives anchor v t) w
  | .mk _ body _ => fun t hmem =>
    (body.statements t hmem).mono fun token htoken => by simp [htoken]

theorem Choice.Derives.statements : Choice.Derives anchor w c → ∀ t ∈ c.statements,
    Part (fun v => Stmt.Derives anchor v t) w
  | .mk _ _ _ _ body otherwise => by
    rw [Choice.statements]
    refine List.forall_mem_append.2 ⟨fun t hmem => ?_, fun t hmem => ?_⟩
    · refine (body.statements t hmem).mono fun token htoken => ?_
      simp [htoken]
    · refine (otherwise.statements t hmem).mono fun token htoken => ?_
      simp [htoken]

theorem Otherwise.Derives.statements : Otherwise.Derives anchor w o → ∀ t ∈ o.statements,
    Part (fun v => Stmt.Derives anchor v t) w
  | .nothing => List.forall_mem_nil _
  | .block _ chosen => fun t hmem => (chosen.statements t hmem).mono (List.subset_cons_self _ _)
  | .choice _ chosen => fun t hmem => (chosen.statements t hmem).mono (List.subset_cons_self _ _)

theorem Stmt.DerivesAll.statements : Stmt.DerivesAll anchor w body →
    ∀ t ∈ Stmt.allStatements body, Part (fun v => Stmt.Derives anchor v t) w
  | .nil => List.forall_mem_nil _
  | .cons first others => by
    rw [Stmt.allStatements]
    refine List.forall_mem_cons.2 ⟨⟨_, List.subset_append_left _ _, first⟩, ?_⟩
    refine List.forall_mem_append.2 ⟨fun t hmem => ?_, fun t hmem => ?_⟩
    · exact (first.inner t hmem).mono (List.subset_append_left _ _)
    · exact (others.statements t hmem).mono (List.subset_append_right _ _)
end

end Rech
