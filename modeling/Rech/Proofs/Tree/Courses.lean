import Rech.Proofs.Tree.Statements

/-!
# Courses through a tree

A course is what may be executed of a list of statements in one go: they come
in turn, each with what is executed inside of it before the next one, and it
may break off anywhere. Inside of a choice it goes through one branch only, its
own body or what is chosen otherwise.
-/

namespace Rech

mutual
/-- What may be executed inside of a statement. -/
inductive Stmt.Inside : Stmt → List Stmt → Prop
  | nothing : Stmt.Inside s []
  | block {inner : Block} (body : Stmt.Course inner.body w) : Stmt.Inside (.block inner) w
  | choice (branch : Choice.Branch first w) : Stmt.Inside (.choice first) w

/-- What may be executed of a choice: something of its body, or else something
of what is chosen otherwise. -/
inductive Choice.Branch : Choice → List Stmt → Prop
  | body (chosen : Stmt.Course body.body w) : Choice.Branch (.mk line condition body other) w
  | otherwise (chosen : Otherwise.Branch other w) :
      Choice.Branch (.mk line condition body other) w

inductive Otherwise.Branch : Otherwise → List Stmt → Prop
  | nothing : Otherwise.Branch .nothing []
  | block (chosen : Stmt.Course other.body w) : Otherwise.Branch (.block other) w
  | choice (chosen : Choice.Branch first w) : Otherwise.Branch (.choice first) w

/-- What may be executed of statements that stand in turn. -/
inductive Stmt.Course : List Stmt → List Stmt → Prop
  | stop : Stmt.Course body []
  | next (inside : Stmt.Inside s v) (others : Stmt.Course rest w) :
      Stmt.Course (s :: rest) (s :: (v ++ w))
end

mutual
theorem Stmt.Inside.sublist : Stmt.Inside s w → w.Sublist s.inner
  | .nothing => List.nil_sublist _
  | .block body => by
    have h := body.sublist
    rwa [Block.allStatements_body] at h
  | .choice branch => branch.sublist

theorem Choice.Branch.sublist : Choice.Branch first w → w.Sublist first.statements
  | .body chosen => by
    have h := chosen.sublist
    rw [Block.allStatements_body] at h
    exact h.trans (List.sublist_append_left _ _)
  | .otherwise chosen => chosen.sublist.trans (List.sublist_append_right _ _)

theorem Otherwise.Branch.sublist : Otherwise.Branch other w → w.Sublist other.statements
  | .nothing => List.nil_sublist _
  | .block chosen => by
    have h := chosen.sublist
    rwa [Block.allStatements_body] at h
  | .choice chosen => chosen.sublist

/-- A course passes each statement once at most, in the order of the text. -/
theorem Stmt.Course.sublist : Stmt.Course body w → w.Sublist (Stmt.allStatements body)
  | .stop => List.nil_sublist _
  | .next inside others => by
    rw [Stmt.allStatements]
    exact (inside.sublist.append others.sublist).cons_cons _
end

theorem Stmt.Course.exists_append (h : Stmt.Course (body ++ others) w) :
    ∃ u v, w = u ++ v ∧ Stmt.Course body u ∧ Stmt.Course others v := by
  induction body generalizing w with
  | nil => exact ⟨[], w, rfl, .stop, h⟩
  | cons s rest ih =>
    cases h with
    | stop => exact ⟨[], [], rfl, .stop, .stop⟩
    | @next _ inside _ w hinside hothers =>
      obtain ⟨u, v, rfl, hu, hv⟩ := ih hothers
      exact ⟨s :: (inside ++ u), v, by simp, .next hinside hu, hv⟩

end Rech
