import Rech.Proofs.Parsing.Agreement
import Rech.Proofs.Session.Readings

/-!
# Syntax errors are at the earliest token that can be blamed

What stands before the token where a program stops can still become one, conditions
aside. With that token it cannot, or with one more where two are looked at.
-/

namespace Rech

open Token (EndsList)

/-- Where an error is, and why no later. -/
structure SyntaxError.Earliest (error : SyntaxError) (tokens : List Token) (position : Nat) :
    Prop where
  stops : ∃ stream after, TokenStream.ofTokens tokens = .ok stream ∧
    Parsing.program.runOn stream = (.error error, after) ∧ after.offset = position
  blames : ∃ token, tokens[position]? = some token ∧ error.Blames (tokens.take position) token
  begun : ∃ rest, Stmt.LooseAll Token.line (tokens.take position ++ rest)
  lost : ∀ others, tokens.take (position + error.cause.lookahead) <+: others →
    ∀ program, Program.ofTokens others ≠ .ok program

theorem TokenStream.open_of_ofTokens {tokens : List Token} (h : EndsList tokens) :
    ∃ stream, TokenStream.ofTokens tokens = .ok stream ∧ stream.ahead = tokens ∧
      stream.offset = 0 ∧ stream.Open := by
  obtain ⟨last, hlast, hk⟩ := h
  exact ⟨_, ofTokens_of_getLast? hlast hk, rfl, rfl, hk, last, hlast, hk⟩

open Parsing in
theorem Program.ofTokens_ne_ok_of_agrees {stream after : TokenStream} {error : SyntaxError}
    (hs : stream.Open) (failed : program.runOn stream = (.error error, after))
    (passed : stream.Passes w after)
    (agrees : stream.ahead.take (w.length + error.cause.lookahead) <+: others) (p : Program) :
    Program.ofTokens others ≠ .ok p := by
  intro hp
  obtain ⟨other, hother, rfl, -, ho⟩ := TokenStream.open_of_ofTokens (endsList_of_ofTokens hp)
  rw [Program.ofTokens, ofTokens_eq hother] at hp
  have hlocal : Local Anywhere stream.ahead.length other.ahead.length program program :=
    local_program
  exact hlocal.error hs ho (Nat.le_refl _) (Nat.le_refl _) trivial failed passed agrees p
    (program.runOn other).2 (Prod.ext hp rfl)

/-- The error of tokens that are no program is at the earliest token that can be
blamed. What stands before it can be completed, conditions aside, and no program
begins like the tokens up to it, or up to the next one for the two errors that rest
on two tokens. -/
theorem Program.error_earliest {tokens : List Token} {error : SyntaxError}
    (ends : EndsList tokens) (failed : Program.ofTokens tokens = .error error) :
    ∃ position, error.Earliest tokens position := by
  obtain ⟨stream, hstream, rfl, hoffset, hs⟩ := TokenStream.open_of_ofTokens ends
  rw [Program.ofTokens, Parsing.ofTokens_eq hstream] at failed
  obtain ⟨after, hrun⟩ : ∃ after, Parsing.program.runOn stream = (.error error, after) :=
    ⟨_, Prod.ext failed rfl⟩
  obtain ⟨w, passed, blames, begun⟩ := Parsing.completable_program hs.ended hrun
  have hposition : after.offset = w.length := by rw [passed.offset, hoffset, Nat.zero_add]
  have htaken : stream.ahead.take w.length = w := by rw [passed.ahead, List.take_left]
  refine ⟨w.length, ⟨stream, after, hstream, hrun, hposition⟩, ?_, ?_, fun others hothers =>
    Program.ofTokens_ne_ok_of_agrees hs hrun passed hothers⟩
  · have hlocal : Parsing.Local Parsing.Anywhere 0 0 Parsing.program Parsing.program :=
      Parsing.local_program
    obtain ⟨v, hv, -, passed'⟩ := hlocal.passes hs trivial
    rw [hrun] at passed'
    obtain rfl := passed.unique passed'
    obtain ⟨token, rest, hahead⟩ := List.exists_cons_of_ne_nil (passed.open hv hs).ne_nil
    have hpeek : after.peek 0 = token := by simp [TokenStream.peek, hahead]
    refine ⟨token, ?_, by rwa [htaken, ← hpeek]⟩
    simp [passed.ahead, hahead]
  · rwa [htaken]

/-- `пусть x 5`, where two tokens are looked at, and `если (a) { }`. -/
theorem Program.error_earliest_sample :
    let declared : List Token := [(.letWord, "пусть"), (.identifier, "x"), (.number, "5"),
      (.endOfFile, "\x00")].map fun entry => ⟨entry.1, entry.2, .start⟩
    let chosen : List Token := [⟨.ifWord, "если", ⟨1, 1⟩⟩, ⟨.leftParen, "(", ⟨1, 6⟩⟩,
      ⟨.identifier, "a", ⟨1, 7⟩⟩, ⟨.rightParen, ")", ⟨1, 8⟩⟩, ⟨.leftBrace, "\x7b", ⟨1, 10⟩⟩,
      ⟨.rightBrace, "\x7d", ⟨1, 12⟩⟩, ⟨.endOfFile, "\x00", ⟨1, 13⟩⟩]
    let unfit : SyntaxError := ⟨.conditionWithoutComparison, some ⟨1, 1⟩⟩
    (∃ position, SyntaxError.Earliest ⟨.badDeclaration, some .start⟩ declared position) ∧
    ∃ position, unfit.Earliest chosen position := by
  intro declared chosen unfit
  have hdeclared : EndsList declared := ⟨_, rfl, rfl⟩
  have hchosen : EndsList chosen := ⟨_, rfl, rfl⟩
  exact ⟨Program.error_earliest hdeclared rfl, Program.error_earliest hchosen rfl⟩

end Rech
