import Rech.Proofs.Grammar.Program
import Rech.Proofs.Token.Exact

/-!
# Programs from source texts

The tokens of a text are those of its program and an end of file behind them.
-/

namespace Rech

theorem Token.EndsOnce.endsList {tokens : List Token} (h : Token.EndsOnce tokens) :
    Token.EndsList tokens := by
  obtain ⟨shown, last, rfl, hlast, -⟩ := h
  exact ⟨last, by simp, hlast⟩

theorem Token.EndsOnce.beforeEnd_eq {tokens : List Token} (h : Token.EndsOnce tokens) :
    Token.beforeEnd tokens = tokens.dropLast := by
  obtain ⟨shown, last, rfl, hlast, hshown⟩ := h
  rw [List.dropLast_concat]
  exact Token.beforeEnd_append hshown (by simp [hlast])

theorem Program.ofSource_of_tokens {source : List Char} {tokens : List Token}
    (h : Token.ofSource source = .ok tokens) :
    Program.ofSource source = Program.ofTokens tokens := by
  rw [ofSource, h]
  rfl

theorem Program.ofSource_of_error {source : List Char} {error : SyntaxError}
    (h : Token.ofSource source = .error error) : Program.ofSource source = .error error := by
  rw [ofSource, h]
  rfl

theorem Program.ofSource_eq_ok_iff {source : List Char} {program : Program} :
    Program.ofSource source = .ok program ↔ ∃ tokens, Token.ofSource source = .ok tokens ∧
      Program.Derives Token.line tokens.dropLast program := by
  cases h : Token.ofSource source with
  | error error => simp [ofSource, h, bind, Except.bind]
  | ok tokens =>
    have hends := (Token.ofSource_eq_ok_iff.1 h).endsOnce
    rw [ofSource_of_tokens h, Program.ofTokens_eq_ok_iff hends.endsList, hends.beforeEnd_eq]
    simp

end Rech
