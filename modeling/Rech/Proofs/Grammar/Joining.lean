import Rech.Proofs.Grammar.Source
import Rech.Proofs.Token.Joining

/-!
# Programs that are put together

The statements of two texts with a newline between them are those of the one
and then those of the other, with the lines of the other raised.
-/

namespace Rech

theorem Stmt.DerivesAll.append (h : Stmt.DerivesAll anchor v body)
    (h' : Stmt.DerivesAll anchor w others) : Stmt.DerivesAll anchor (v ++ w) (body ++ others) := by
  induction body generalizing v with
  | nil =>
    cases h with
    | nil => exact h'
  | cons s rest ih =>
    cases h with
    | cons first following =>
      rw [List.append_assoc]
      exact .cons first (ih following)

theorem Token.moves_raise (lines : Int) :
    Token.Moves Token.line Token.line (raiseLine lines) (Token.raise lines) :=
  ⟨fun _ => rfl, fun _ => rfl, fun _ => rfl⟩

theorem Program.ofSource_join {source more : List Char} {program other : Program}
    (h : Program.ofSource source = .ok program) (h' : Program.ofSource more = .ok other) :
    Program.ofSource (source ++ '\n' :: more) =
      .ok ⟨program.body ++ (other.mapLine (raiseLine (Place.linesOf source))).body⟩ := by
  obtain ⟨tokens, htokens, hd⟩ := Program.ofSource_eq_ok_iff.1 h
  obtain ⟨others, hothers, hd'⟩ := Program.ofSource_eq_ok_iff.1 h'
  refine Program.ofSource_eq_ok_iff.2 ⟨_, Token.ofSource_join htokens hothers, ?_⟩
  have hne : others.map (Token.raise (Place.linesOf source)) ≠ [] := by
    simp [(Token.ofSource_eq_ok_iff.1 hothers).ne_nil]
  rw [List.dropLast_append_of_ne_nil hne, ← List.map_dropLast]
  exact Stmt.DerivesAll.append hd (hd'.mapLine (Token.moves_raise _))

end Rech
