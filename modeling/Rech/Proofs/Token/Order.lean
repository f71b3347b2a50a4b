import Rech.Proofs.Token.Exact

/-!
# Tokens stand in the order of the text

A token that is read later stands on the same line or on a later one.
-/

namespace Rech

namespace Lexing

theorem Segmented.line_behind_le (h : Segmented before source tokens) :
    ∀ token ∈ tokens, (Place.behind before).line ≤ token.place.line := by
  induction h with
  | last gap => exact List.forall_mem_singleton.2 (Place.line_behind_le _ _)
  | token gap lexeme _ ih =>
    refine List.forall_mem_cons.2 ⟨Place.line_behind_le _ _, fun token hmem => ?_⟩
    exact Int.le_trans (Place.line_behind_le _ _) (ih token hmem)

theorem Segmented.pairwise_line (h : Segmented before source tokens) :
    tokens.Pairwise fun token later => token.place.line ≤ later.place.line := by
  induction h with
  | last gap => exact List.pairwise_singleton _ _
  | @token skipped span rest kind text before tokens gap lexeme others ih =>
    refine .cons (fun later hmem => ?_) ih
    have hbehind := Place.line_behind_le (before ++ skipped) span
    rw [List.append_assoc] at hbehind
    exact Int.le_trans hbehind (others.line_behind_le later hmem)

end Lexing

theorem Token.pairwise_line_ofSource {source : List Char} {tokens : List Token}
    (h : Token.ofSource source = .ok tokens) :
    tokens.Pairwise fun token later => token.place.line ≤ later.place.line :=
  (Token.ofSource_eq_ok_iff.1 h).pairwise_line

end Rech
