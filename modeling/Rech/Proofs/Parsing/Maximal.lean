import Rech.Proofs.Parsing.Position

/-!
# Readers of expressions read as far as the grammar goes

Wherever it stands, a reader of expressions with operators of some levels answers if
and only if such an expression is in front, up to a token that is no operator of these
levels. What stands behind that token does not matter, and there is only one such
token. A chain stops at no operator of its level because there are rounds left for
every token in front.
-/

namespace Rech

open Token (EndsList NoEnd)

/-- The expression is spelled between two positions, and no operator of the levels goes on
with it. -/
structure Expr.Maximal (tokens : List Token) (levels : List Level) (p q : Nat) (e : Expr) :
    Prop where
  le : p ≤ q
  spelled : Expr.Derives Token.line levels (tokens.extract p q) e
  stopped : ∃ token, tokens[q]? = some token ∧ token.Outside levels

namespace Parsing

/-- The readers of expressions and the levels of the operators that they take. -/
inductive ReadsLevels : List Level → Parsing Expr → Prop
  | expression : ReadsLevels [.comparison, .additive, .multiplicative] expression
  | sum : ReadsLevels [.additive, .multiplicative] sum
  | product : ReadsLevels [.multiplicative] product
  | operand : ReadsLevels [] operand

/-- What a reader answers is followed by no operator of the levels. -/
def StopsAt (levels : List Level) (parsing : Parsing Expr) : Prop :=
  ∀ ⦃stream after e⦄, stream.Ended → parsing.runOn stream = (.ok e, after) →
    (after.peek 0).Outside levels

section
variable {tier : Tier} {level : Level} {tighter : List Level} {operand : Parsing Expr}

theorem stops_chain (hm : tier.Matches level)
    (ho : Sound operand (Expr.Derives Token.line tighter)) (hf : StopsAt tighter operand)
    (rounds : Nat) :
    ∀ {stream after : TokenStream} {l e : Expr}, stream.Ended →
      stream.ahead.length ≤ rounds → (stream.peek 0).Outside tighter →
      (chain tier operand rounds l).runOn stream = (.ok e, after) →
      (after.peek 0).Outside (level :: tighter) := by
  induction rounds with
  | zero =>
    intro stream after l e hs hr hout h
    obtain ⟨-, rfl⟩ := runOn_pure_ok.1 h
    have hend : (stream.peek 0).kind = .endOfFile := by
      rwa [TokenStream.peek_eq_last (List.length_eq_zero_iff.1 (Nat.le_zero.1 hr))]
    exact List.forall_mem_cons.2 ⟨fun operator => operator.ne_endOfFile hend, hout⟩
  | succ rounds ih =>
    intro stream after l e hs hr hout h
    rw [chain, runOn_peek_bind] at h
    split at h
    next hhas =>
      rw [runOn_take_bind] at h
      obtain ⟨r, middle, hright, h⟩ := runOn_bind_ok.1 h
      have first := TokenStream.passes_advance hs ((hm.has _).1 hhas).ne_endOfFile
      obtain ⟨w, second, -⟩ := ho (first.ended hs) hright
      have hlength := (first.trans second).length_ahead
      simp only [List.length_append, List.length_singleton] at hlength
      exact ih ((first.trans second).ended hs) (by omega) (hf (first.ended hs) hright) h
    next hno =>
      obtain ⟨-, rfl⟩ := runOn_pure_ok.1 h
      exact List.forall_mem_cons.2 ⟨mt (hm.has _).2 hno, hout⟩

theorem stops_tier (hm : tier.Matches level)
    (ho : Sound operand (Expr.Derives Token.line tighter)) (hf : StopsAt tighter operand) :
    StopsAt (level :: tighter) (Parsing.tier tier operand) := by
  intro stream after e hs h
  rw [Parsing.tier] at h
  obtain ⟨l, middle, hl, h⟩ := runOn_bind_ok.1 h
  rw [runOn_remaining_bind] at h
  obtain ⟨w, passed, -⟩ := ho hs hl
  exact stops_chain hm ho hf _ (passed.ended hs) (Nat.le_refl _) (hf hs hl) h

end

/-- A reader of the expressions with operators of some levels, which goes on as far as
the grammar does. -/
structure ReadsWhole (levels : List Level) (parsing : Parsing Expr) : Prop where
  sound : Sound parsing (Expr.Derives Token.line levels)
  complete : ∀ bound, Complete bound parsing (Expr.Derives Token.line levels)
    (Token.Outside levels)
  stops : StopsAt levels parsing

theorem ReadsWhole.tier {tier : Tier} {level : Level} {tighter : List Level}
    {operand : Parsing Expr} (h : ReadsWhole tighter operand) (hm : tier.Matches level)
    (hl : level ∉ tighter) : ReadsWhole (level :: tighter) (Parsing.tier tier operand) where
  sound := sound_tier hm h.sound
  complete bound := complete_tier hm hl (h.complete bound)
  stops := stops_tier hm h.sound h.stops

theorem readsWhole_operand : ReadsWhole [] operand where
  sound := sound_operand
  complete _ := complete_operand
  stops _ _ _ _ _ := List.forall_mem_nil _

variable {stream : TokenStream} {levels : List Level} {parsing : Parsing Expr} {p q : Nat}
  {e : Expr}

theorem ReadsLevels.readsWhole (h : ReadsLevels levels parsing) : ReadsWhole levels parsing := by
  have hproduct : ReadsWhole _ Parsing.product :=
    readsWhole_operand.tier Tier.matches_multiplicative (by decide)
  have hsum : ReadsWhole _ Parsing.sum := hproduct.tier Tier.matches_additive (by decide)
  cases h with
  | expression => exact hsum.tier Tier.matches_comparison (by decide)
  | sum => exact hsum
  | product => exact hproduct
  | operand => exact readsWhole_operand

theorem ReadsLevels.runOn_of_maximal (h : ReadsLevels levels parsing)
    (hm : Expr.Maximal stream.tokens levels p q e) :
    parsing.runOn (stream.seek p) = (.ok e, stream.seek q) := by
  obtain ⟨token, htoken, hout⟩ := hm.stopped
  have hlt := (List.getElem?_eq_some_iff.1 htoken).1
  have hpeek : (stream.seek q).peek 0 = token := by simp [TokenStream.peek, htoken]
  exact h.readsWhole.complete _ hm.spelled (Nat.le_refl _)
    (TokenStream.passes_extract hm.le (Nat.le_of_lt hlt)) (hpeek ▸ hout)

theorem ReadsLevels.maximal_of_runOn (h : ReadsLevels levels parsing) (hs : stream.Ended)
    (ends : EndsList stream.tokens) {after : TokenStream}
    (hrun : parsing.runOn (stream.seek p) = (.ok e, after)) :
    Expr.Maximal stream.tokens levels p after.offset e := by
  obtain ⟨w, passed, dw⟩ := h.readsWhole.sound (hs.seek p) hrun
  have hnoEnd : NoEnd w := fun token hm hk => by
    simpa [hk, Token.Kind.inExpression] using dw.inExpression token hm
  have hopen : (stream.seek p).Open := by
    refine TokenStream.open_seek hs ends (Nat.lt_of_not_le fun hle => ?_)
    obtain ⟨token, rest, rfl, -⟩ := dw.exists_cons
    have hnone := (TokenStream.passes_seek_iff.1 passed).2
    simp [List.drop_eq_nil_of_le hle] at hnone
  refine ⟨by rw [passed.offset]; exact Nat.le_add_right .., passed.extract_eq ▸ dw, ?_⟩
  have hafter := passed.open hnoEnd hopen
  obtain ⟨rfl, -⟩ := TokenStream.passes_seek_iff.1 passed
  exact ⟨_, TokenStream.getElem?_eq_peek (TokenStream.lt_length_of_open hafter),
    h.readsWhole.stops (hs.seek p) hrun⟩

/-- From every position on, an expression is read up to a position if and only if it is
spelled there and ends there; and it can end at one position only. -/
theorem reads_maximal {tokens : List Token} (ends : EndsList tokens)
    (h : ReadsLevels levels parsing) :
    ∃ stream, TokenStream.ofTokens tokens = .ok stream ∧ ∀ p,
      (∀ q e, p ≤ q → ((∃ after, parsing.runOn (stream.seek p) = (.ok e, after) ∧
        after.offset = q) ↔ Expr.Maximal tokens levels p q e)) ∧
      ∀ q q' e e', Expr.Maximal tokens levels p q e → Expr.Maximal tokens levels p q' e' →
        q = q' ∧ e = e' := by
  obtain ⟨stream, hstream, rfl, hs⟩ := TokenStream.exists_tokens ends
  refine ⟨stream, hstream, fun p => ⟨fun q e _ => ⟨?_, fun hm => ?_⟩, fun q q' e e' hm hm' => ?_⟩⟩
  · rintro ⟨after, hrun, rfl⟩
    exact h.maximal_of_runOn hs ends hrun
  · exact ⟨_, h.runOn_of_maximal hm, rfl⟩
  · have hsame := (h.runOn_of_maximal hm).symm.trans (h.runOn_of_maximal hm')
    simp only [Prod.mk.injEq, Except.ok.injEq] at hsame
    exact ⟨congrArg TokenStream.offset hsame.2, hsame.1⟩

/-- In `если (a - b - c < d)` a sum is read from `a` up to the comparison. -/
theorem reads_maximal_sum :
    let name (symbol : String) : Expr := .identifier ⟨some 1, symbol⟩
    EndsList Program.sampleTokens ∧ ReadsLevels [.additive, .multiplicative] sum ∧
      Expr.Maximal Program.sampleTokens [.additive, .multiplicative] 2 7
        (.math (some 1) (.math (some 1) (name "a") "-" (name "b")) "-" (name "c")) := by
  intro name
  have ends : EndsList Program.sampleTokens := ⟨_, rfl, rfl⟩
  obtain ⟨stream, hstream, hread⟩ := reads_maximal ends .sum
  obtain rfl := Except.ok.inj hstream
  exact ⟨ends, .sum, ((hread 2).1 7 _ (by decide)).1 ⟨_, rfl, rfl⟩⟩

end Parsing

end Rech
