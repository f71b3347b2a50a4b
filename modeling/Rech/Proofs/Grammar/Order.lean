import Rech.Proofs.Grammar.Runnable
import Rech.Proofs.Token.Order

/-!
# Statements stand in the order of their tokens

Each statement of a program stands at a token of its own, and the statements of
a tree come in the order of these tokens. An expression that is a statement
stands at its outermost operator, which is none of its first tokens but one of
its own.
-/

namespace Rech

variable {anchor : Token → Option Int}

theorem Assignment.Derives.line (h : Assignment.Derives anchor w a) : a.line ∈ w.map anchor := by
  cases h with
  | mk => exact List.mem_cons_self

mutual
theorem Stmt.Derives.lines : Stmt.Derives anchor w s →
    ((s :: s.inner).map Stmt.line).Sublist (w.map anchor)
  | .block inner => inner.lines
  | .choice first => first.lines
  | .print .. | .returnNothing .. | .returnValue .. | .declaration .. =>
    (List.nil_sublist _).cons_cons _
  | .assignment assigned _ => by
    rw [List.map_append]
    exact (List.singleton_sublist.2 assigned.line).trans (List.sublist_append_left _ _)
  | .expression value _ => by
    obtain ⟨token, hmem, hline⟩ := value.exists_line
    rw [List.map_append]
    refine (List.singleton_sublist.2 ?_).trans (List.sublist_append_left _ _)
    exact List.mem_map.2 ⟨token, hmem, hline.symm⟩

theorem Block.Derives.lines : Block.Derives anchor w b →
    (b.line :: b.statements.map Stmt.line).Sublist (w.map anchor)
  | .mk _ body _ => by
    rw [List.map_cons, List.map_append]
    exact (body.lines.trans (List.sublist_append_left _ _)).cons_cons _

theorem Choice.Derives.lines : Choice.Derives anchor w c →
    (c.line :: c.statements.map Stmt.line).Sublist (w.map anchor)
  | .mk _ _ _ _ body otherwise => by
    have hbody := (List.sublist_cons_self _ _).trans body.lines
    rw [Choice.statements, List.map_append]
    refine List.Sublist.cons_cons _ ?_
    simp only [List.map_cons, List.map_append]
    exact (((hbody.append otherwise.lines).cons _).trans (List.sublist_append_right _ _)).cons _

theorem Otherwise.Derives.lines : Otherwise.Derives anchor w o →
    (o.statements.map Stmt.line).Sublist (w.map anchor)
  | .nothing => List.nil_sublist _
  | .block _ chosen => ((List.sublist_cons_self _ _).trans chosen.lines).cons _
  | .choice _ chosen => ((List.sublist_cons_self _ _).trans chosen.lines).cons _

theorem Stmt.DerivesAll.lines : Stmt.DerivesAll anchor w body →
    ((Stmt.allStatements body).map Stmt.line).Sublist (w.map anchor)
  | .nil => List.nil_sublist _
  | .cons first others => by
    rw [Stmt.allStatements, ← List.cons_append, List.map_append, List.map_append]
    exact first.lines.append others.lines
end

/-- Down the text of a program, the lines of its statements never decrease. -/
theorem Program.exists_numbers_ofSource {source : List Char} {program : Program}
    (h : Program.ofSource source = .ok program) : ∃ numbers : List Int,
      program.statements.map Stmt.line = numbers.map some ∧ numbers.Pairwise (· ≤ ·) := by
  obtain ⟨tokens, htokens, hd⟩ := Program.ofSource_eq_ok_iff.1 h
  obtain ⟨shown, hshown, hlines⟩ := List.sublist_map_iff.1 (Stmt.DerivesAll.lines hd)
  have hsorted := (Token.pairwise_line_ofSource htokens).sublist
    (hshown.trans (List.dropLast_sublist tokens))
  refine ⟨shown.map fun token => token.place.line, ?_, List.pairwise_map.2 hsorted⟩
  rw [Program.statements, hlines, List.map_map]
  rfl

end Rech
