import Rech.Parsing.Expression
import Rech.Proofs.Grammar.Expression
import Rech.Proofs.Parsing.Basic

/-!
# Expressions are read as the grammar has them

The reader of expressions is sound for the grammar and complete up to the
number of tokens left. Both are proved level by level: a reader of operands that
are of the tighter levels makes a reader of chains of one level more. Only the
operand in parentheses goes back to all levels, at a smaller bound.
-/

namespace Rech

/-- The line a token is on, which is that of the nodes that stand at it. -/
def Token.line (token : Token) : Option Int := some token.place.line

namespace Tier

theorem has_iff {tier : Tier} {token : Token} :
    tier.has token = true ↔ token.kind = tier.kind ∧ token.text ∈ tier.spellings := by
  simp [has]

/-- A tier that is read has the operators of a level, and makes its nodes. -/
structure Matches (tier : Tier) (level : Level) : Prop where
  has : ∀ sign, tier.has sign = true ↔ level.Has sign
  node : tier.node = level.node

theorem matches_comparison : comparison.Matches .comparison where
  has sign := by simp [has_iff, comparison, Level.Has]
  node := rfl

theorem matches_additive : additive.Matches .additive where
  has sign := by simp [has_iff, additive, Level.Has]
  node := rfl

theorem matches_multiplicative : multiplicative.Matches .multiplicative where
  has sign := by simp [has_iff, multiplicative, Level.Has]
  node := rfl

end Tier

namespace Parsing

-- ---------------------------------------------------------------------------
-- Soundness
-- ---------------------------------------------------------------------------

theorem sound_chain {tier : Tier} {level : Level} {tighter : List Level} {operand : Parsing Expr}
    (hm : tier.Matches level) (ho : Sound operand (Expr.Derives Token.line tighter))
    (bound : Nat) :
    ∀ {stream after : TokenStream} {v : List Token} {l e : Expr},
      Expr.Derives Token.line (level :: tighter) v l → stream.Ended →
      (chain tier operand bound l).runOn stream = (.ok e, after) →
      ∃ w, stream.Passes w after ∧ Expr.Derives Token.line (level :: tighter) (v ++ w) e := by
  induction bound with
  | zero =>
    intro stream after v l e hl hs h
    simp only [chain, runOn_pure_ok] at h
    obtain ⟨rfl, rfl⟩ := h
    exact ⟨[], .refl _, by simpa using hl⟩
  | succ bound ih =>
    intro stream after v l e hl hs h
    simp only [chain, runOn_bind_ok, runOn_peek_ok] at h
    obtain ⟨sign, _, ⟨rfl, rfl⟩, h⟩ := h
    split at h
    next hhas =>
      have operator := (hm.has _).1 hhas
      simp only [runOn_bind_ok, runOn_take_ok, hm.node] at h
      obtain ⟨_, _, ⟨-, rfl⟩, r, middle, hr, h⟩ := h
      have first := TokenStream.passes_advance hs operator.ne_endOfFile
      obtain ⟨w, second, dr⟩ := ho (first.ended hs) hr
      obtain ⟨w', third, de⟩ := ih (.applied hl operator dr) (second.ended (first.ended hs)) h
      exact ⟨stream.peek 0 :: (w ++ w'), first.trans (second.trans third), by simpa using de⟩
    next =>
      simp only [runOn_pure_ok] at h
      obtain ⟨rfl, rfl⟩ := h
      exact ⟨[], .refl _, by simpa using hl⟩

theorem sound_tier {tier : Tier} {level : Level} {tighter : List Level} {operand : Parsing Expr}
    (hm : tier.Matches level) (ho : Sound operand (Expr.Derives Token.line tighter)) :
    Sound (Parsing.tier tier operand) (Expr.Derives Token.line (level :: tighter)) := by
  intro stream after e hs h
  simp only [Parsing.tier, runOn_bind_ok, runOn_remaining_ok] at h
  obtain ⟨l, middle, hl, _, _, ⟨rfl, rfl⟩, h⟩ := h
  obtain ⟨v, first, dl⟩ := ho hs hl
  obtain ⟨w, second, de⟩ := sound_chain hm ho _ (.single dl) (first.ended hs) h
  exact ⟨v ++ w, first.trans second, de⟩

theorem sound_tiers {operand : Parsing Expr} (ho : Sound operand (Expr.Derives Token.line [])) :
    Sound (tiers operand) (Expr.Derives Token.line Level.all) :=
  sound_tier Tier.matches_comparison
    (sound_tier Tier.matches_additive (sound_tier Tier.matches_multiplicative ho))

theorem sound_unexpected {phrase : List Token → α → Prop} : Sound unexpected phrase := by
  intro stream after e hs h
  simp [unexpected, runOn_bind] at h

theorem sound_parenthesized {inner : Parsing Expr} {phrase : List Token → Expr → Prop}
    (hi : Sound inner phrase) (hs : stream.Ended) (kind : (stream.peek 0).kind = .leftParen)
    (h : (parenthesized inner).runOn stream = (.ok e, after)) :
    ∃ w closing, stream.Passes (stream.peek 0 :: (w ++ [closing])) after ∧ phrase w e ∧
      closing.kind = .rightParen := by
  simp only [parenthesized, runOn_bind_ok, runOn_take_ok, runOn_eat_ok, runOn_pure_ok] at h
  obtain ⟨_, _, ⟨-, rfl⟩, value, middle, hv, closing, _, ⟨hc, rfl, rfl⟩, rfl, rfl⟩ := h
  have first : stream.Passes [stream.peek 0] stream.advance :=
    TokenStream.passes_advance hs (by simp [kind])
  obtain ⟨w, second, hw⟩ := hi (first.ended hs) hv
  have third : middle.Passes [middle.peek 0] middle.advance :=
    TokenStream.passes_advance (second.ended (first.ended hs)) (by simp [hc])
  exact ⟨w, middle.peek 0, first.trans (second.trans third), hw, hc⟩

theorem sound_operandWithin (bound : Nat) :
    Sound (operandWithin bound) (Expr.Derives Token.line []) := by
  induction bound with
  | zero => exact sound_unexpected
  | succ bound ih =>
    intro stream after e hs h
    simp only [operandWithin, runOn_bind_ok, runOn_peek_ok] at h
    obtain ⟨token, _, ⟨rfl, rfl⟩, h⟩ := h
    have first (hk : (stream.peek 0).kind ≠ .endOfFile) := TokenStream.passes_advance hs hk
    split at h
    case h_1 kind =>
      split at h
      next text =>
        simp only [runOn_bind_ok, runOn_take_ok, runOn_pure_ok] at h
        obtain ⟨_, _, ⟨-, rfl⟩, value, middle, hv, rfl, rfl⟩ := h
        have taken := first (by simp [kind])
        obtain ⟨w, second, dv⟩ := ih (taken.ended hs) hv
        exact ⟨_, taken.trans second, .negate kind text dv⟩
      next => exact sound_unexpected hs h
    case h_2 kind =>
      simp only [runOn_bind_ok, runOn_take_ok, runOn_pure_ok] at h
      obtain ⟨_, _, ⟨-, rfl⟩, rfl, rfl⟩ := h
      exact ⟨_, first (by simp [kind]), .number kind⟩
    case h_3 kind =>
      simp only [runOn_bind_ok, runOn_take_ok, runOn_pure_ok] at h
      obtain ⟨_, _, ⟨-, rfl⟩, rfl, rfl⟩ := h
      exact ⟨_, first (by simp [kind]), .string kind⟩
    case h_4 kind =>
      simp only [runOn_bind_ok, runOn_take_ok, runOn_pure_ok] at h
      obtain ⟨_, _, ⟨-, rfl⟩, rfl, rfl⟩ := h
      exact ⟨_, first (by simp [kind]), .null kind⟩
    case h_5 kind =>
      obtain ⟨w, closing, passed, dw, hc⟩ := sound_parenthesized (sound_tiers ih) hs kind h
      exact ⟨_, passed, .parenthesized kind dw hc⟩
    case h_6 kind =>
      simp only [identifier, runOn_bind_ok, runOn_take_ok, runOn_pure_ok] at h
      obtain ⟨_, _, ⟨_, _, ⟨rfl, rfl⟩, rfl, rfl⟩, rfl, rfl⟩ := h
      exact ⟨_, first (by simp [kind]), .identifier kind⟩
    case h_7 => exact sound_unexpected hs h

theorem sound_operand : Sound operand (Expr.Derives Token.line []) := by
  intro stream after e hs h
  simp only [operand, runOn_bind_ok, runOn_remaining_ok] at h
  obtain ⟨_, _, ⟨rfl, rfl⟩, h⟩ := h
  exact sound_operandWithin _ hs h

theorem sound_expression : Sound expression (Expr.Derives Token.line Level.all) :=
  sound_tiers sound_operand

-- ---------------------------------------------------------------------------
-- Completeness
-- ---------------------------------------------------------------------------

section
variable {tier : Tier} {level : Level} {tighter : List Level} {operand : Parsing Expr}
  {bound : Nat}

/-- Reading a tier gets past every chain in front, and then goes on with as many
rounds as tokens are left. -/
theorem tier_eq_chain (hm : tier.Matches level) (hl : level ∉ tighter)
    (ho : Complete bound operand (Expr.Derives Token.line tighter) (Token.Outside tighter))
    (h : Expr.Derives Token.line (level :: tighter) w e) (hb : w.length ≤ bound)
    (hp : stream.Passes w after) (hf : (after.peek 0).Outside tighter) :
    ∃ rounds, after.ahead.length ≤ rounds ∧
      (Parsing.tier tier operand).runOn stream = (chain tier operand rounds e).runOn after := by
  generalize hts : level :: tighter = levels at h
  induction h generalizing after with
  | number | string | null | identifier | negate | parenthesized => cases hts
  | single dw =>
    cases hts
    refine ⟨after.ahead.length, Nat.le_refl _, ?_⟩
    rw [Parsing.tier, runOn_bind, ho dw hb hp hf]
    rfl
  | @applied _ v l w r _ sign left operator right ihl =>
    cases hts
    obtain ⟨middle, hv, hw⟩ := TokenStream.Passes.append_iff.1 hp
    simp only [List.length_append, List.length_cons] at hb
    have hsign : middle.peek 0 = sign := hw.peek
    obtain ⟨rounds, hr, hrun⟩ := ihl (by omega) hv
      (fun other ho h => hl (operator.unique (hsign ▸ h) ▸ ho)) rfl
    have hlen := hw.length_ahead
    obtain ⟨rounds, rfl⟩ : ∃ n, rounds = n + 1 :=
      ⟨rounds - 1, by simp only [List.length_cons] at hlen; omega⟩
    refine ⟨rounds, by simp only [List.length_cons] at hlen; omega, ?_⟩
    have hright := ho right (by omega) (TokenStream.Passes.cons_iff.1 hw).2 hf
    rw [hrun, chain, runOn_bind, runOn_peek, hsign]
    simp only [(hm.has _).2 operator, if_true, runOn_bind, runOn_take, hright, hm.node, hsign]
    rfl

theorem complete_tier (hm : tier.Matches level) (hl : level ∉ tighter)
    (ho : Complete bound operand (Expr.Derives Token.line tighter) (Token.Outside tighter)) :
    Complete bound (Parsing.tier tier operand) (Expr.Derives Token.line (level :: tighter))
      (Token.Outside (level :: tighter)) := by
  intro stream after w e dw hb hp hf
  obtain ⟨rounds, -, hrun⟩ :=
    tier_eq_chain hm hl ho dw hb hp fun other h => hf other (List.mem_cons_of_mem _ h)
  rw [hrun]
  cases rounds with
  | zero => rfl
  | succ rounds =>
    rw [chain, runOn_bind, runOn_peek]
    have hno := mt (hm.has _).1 (hf level List.mem_cons_self)
    simp [hno]

end

theorem complete_tiers {operand : Parsing Expr}
    (ho : Complete bound operand (Expr.Derives Token.line []) (Token.Outside [])) :
    Complete bound (tiers operand) (Expr.Derives Token.line Level.all)
      (Token.Outside Level.all) := by
  have hproduct := complete_tier Tier.matches_multiplicative (by decide) ho
  have hsum := complete_tier Tier.matches_additive (by decide) hproduct
  exact complete_tier Tier.matches_comparison (by decide) hsum

theorem complete_parenthesized {inner : Parsing Expr} {phrase : List Token → Expr → Prop}
    (hi : Complete bound inner phrase (Token.Outside Level.all)) (dw : phrase w e)
    (hb : w.length ≤ bound) (right : closing.kind = .rightParen)
    (hp : stream.Passes (opening :: (w ++ [closing])) after) :
    (parenthesized inner).runOn stream = (.ok e, after) := by
  obtain ⟨-, hp⟩ := TokenStream.Passes.cons_iff.1 hp
  obtain ⟨middle, hw, hc⟩ := TokenStream.Passes.append_iff.1 hp
  have hf : (middle.peek 0).Outside Level.all := by
    rw [hc.peek]
    exact Token.outside_of_kind (by simp [right]) (by simp [right])
  simp only [parenthesized, runOn_bind, runOn_take, hi dw hb hw hf, eat, runOn_peek, hc.peek,
    right, if_true, runOn_pure, hc.advance_eq]

theorem complete_operandWithin (bound : Nat) :
    Complete bound (operandWithin bound) (Expr.Derives Token.line []) (Token.Outside []) := by
  induction bound with
  | zero =>
    intro stream after w e dw hb
    obtain ⟨token, rest, rfl, -⟩ := dw.exists_cons
    simp at hb
  | succ bound ih =>
    intro stream after w e dw hb hp hf
    cases dw with
    | number kind | string kind | null kind | identifier kind =>
      simp [operandWithin, identifier, runOn_bind, runOn_map, hp.peek, hp.advance_eq, kind,
        Token.line]
    | negate kind text operand =>
      obtain ⟨-, hw⟩ := TokenStream.Passes.cons_iff.1 hp
      have hrun := ih operand (by simpa using hb) hw hf
      simp [operandWithin, runOn_bind, runOn_map, hp.peek, kind, text, hrun, Token.line]
    | parenthesized left inner right =>
      simp only [List.length_cons, List.length_append, List.length_nil] at hb
      have hrun := complete_parenthesized (complete_tiers ih) inner (by omega) right hp
      simpa [operandWithin, runOn_bind, hp.peek, left] using hrun

theorem complete_operand :
    Complete bound operand (Expr.Derives Token.line []) (Token.Outside []) := by
  intro stream after w e dw _ hp hf
  have hlen : w.length ≤ stream.ahead.length := hp.length_ahead ▸ Nat.le_add_right ..
  rw [operand, runOn_bind, runOn_remaining]
  exact complete_operandWithin _ dw hlen hp hf

theorem complete_expression :
    Complete bound expression (Expr.Derives Token.line Level.all) (Token.Outside Level.all) :=
  complete_tiers complete_operand

end Parsing

end Rech
