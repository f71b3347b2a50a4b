import Rech.Proofs.Grammar.Loose
import Rech.Proofs.Parsing.Statement

/-!
# Where failing readers halt

The tokens that a reader took before it failed begin a phrase, and the error is at
the token in front. Only the error of a condition that is no comparison is at
the word of its choice, with the condition in parentheses right behind it.
-/

namespace Rech

/-- An error behind the tokens taken, where a token is in front. -/
inductive SyntaxError.Blames (error : SyntaxError) : List Token → Token → Prop
  | front (message : error.cause.message ≠ Cause.conditionWithoutComparison.message)
      (place : error.place = some token.place) : Blames error w token
  | condition {word opening closing : Token} (before : List Token)
      (cause : error.cause = .conditionWithoutComparison)
      (place : error.place = some word.place) (keyword : word.kind = .ifWord)
      (left : opening.kind = .leftParen) (read : Expr.Derives Token.line Level.all v e)
      (uncompared : e.comparison? = none) (right : closing.kind = .rightParen)
      (body : token.kind = .leftBrace) :
      Blames error (before ++ word :: opening :: (v ++ [closing])) token

theorem SyntaxError.Blames.append {error : SyntaxError} (h : error.Blames w token)
    (v : List Token) : error.Blames (v ++ w) token := by
  cases h with
  | front message place => exact .front message place
  | condition before cause place keyword left read uncompared right body =>
    rw [← List.append_assoc]
    exact .condition _ cause place keyword left read uncompared right body

theorem SyntaxError.Cause.message_unexpected_ne (shown : String) :
    (unexpected shown).message ≠ conditionWithoutComparison.message := by
  intro h
  have hthird := congrArg (fun message : String => message.toList[2]?) h
  have hleft : (unexpected shown).message = "Неожиданный символ: " ++ shown := rfl
  rw [hleft, String.toList_append, List.getElem?_append_left (by decide)] at hthird
  revert hthird
  decide

def Token.Begin (phrase : List Token → Prop) (w : List Token) : Prop := ∃ rest, phrase (w ++ rest)

namespace Parsing

/-- A failure whose error is where it should be, behind tokens that begin a phrase. -/
def Halts (phrase : List Token → Prop) (stream after : TokenStream) (error : SyntaxError) : Prop :=
  ∃ w, stream.Passes w after ∧ error.Blames w (after.peek 0) ∧ Token.Begin phrase w

/-- Wherever a reader fails, its phrase is begun. -/
def Completable (parsing : Parsing α) (phrase : List Token → Prop) : Prop :=
  ∀ ⦃stream after error⦄, stream.Ended → parsing.runOn stream = (.error error, after) →
    Halts phrase stream after error

variable {phrase other : List Token → Prop} {stream middle after : TokenStream}
  {error : SyntaxError} {cause : SyntaxError.Cause}

theorem Halts.behind (h : Halts other middle after error) (passed : stream.Passes v middle)
    (extend : ∀ w, other w → Token.Begin phrase (v ++ w)) : Halts phrase stream after error := by
  obtain ⟨w, taken, blames, rest, hw⟩ := h
  obtain ⟨more, hmore⟩ := extend _ hw
  refine ⟨v ++ w, passed.trans taken, blames.append v, rest ++ more, ?_⟩
  simpa using hmore

theorem Halts.mono (h : Halts other stream after error)
    (extend : ∀ w, other w → Token.Begin phrase w) : Halts phrase stream after error :=
  h.behind (.refl _) extend

theorem halts_front (passed : stream.Passes w after)
    (message : cause.message ≠ SyntaxError.Cause.conditionWithoutComparison.message)
    (begins : Token.Begin phrase w) :
    Halts phrase stream after ⟨cause, some (after.peek 0).place⟩ :=
  ⟨w, passed, .front message rfl, begins⟩

theorem halts_unexpected (begins : Token.Begin phrase [])
    (h : (unexpected : Parsing α).runOn stream = (.error error, after)) :
    Halts phrase stream after error := by
  rw [unexpected, runOn_peek_bind, runOn_fail_error] at h
  obtain ⟨rfl, rfl⟩ := h
  exact halts_front (.refl _) (SyntaxError.Cause.message_unexpected_ne _) begins

-- ---------------------------------------------------------------------------
-- Chains
-- ---------------------------------------------------------------------------

/-- The tokens of expressions whose operators outside of parentheses are of the
given levels. -/
def Spells (levels : List Level) (w : List Token) : Prop :=
  ∃ e, Expr.Derives Token.line levels w e

theorem exists_spells (levels : List Level) : ∃ w, Spells levels w := by
  induction levels with
  | nil => exact ⟨[⟨.nullWord, "", .start⟩], _, .null rfl⟩
  | cons level levels ih =>
    obtain ⟨w, e, de⟩ := ih
    exact ⟨w, e, .single de⟩

section
variable {tier : Tier} {level : Level} {tighter : List Level} {operand : Parsing Expr}

theorem halts_chain (hm : tier.Matches level)
    (ho : Sound operand (Expr.Derives Token.line tighter))
    (hf : Completable operand (Spells tighter)) (bound : Nat) :
    ∀ {stream after : TokenStream} {v : List Token} {l : Expr} {error : SyntaxError},
      Expr.Derives Token.line (level :: tighter) v l → stream.Ended →
      (chain tier operand bound l).runOn stream = (.error error, after) →
      Halts (fun w => Spells (level :: tighter) (v ++ w)) stream after error := by
  induction bound with
  | zero =>
    intro stream after v l error hl hs h
    simp [chain] at h
  | succ bound ih =>
    intro stream after v l error hl hs h
    rw [chain, runOn_peek_bind] at h
    split at h
    next hhas =>
      have operator := (hm.has _).1 hhas
      rw [runOn_take_bind, runOn_bind_error] at h
      have first := TokenStream.passes_advance hs operator.ne_endOfFile
      rcases h with h | ⟨r, middle, hr, h⟩
      · refine (hf (first.ended hs) h).behind first fun w hw => ?_
        obtain ⟨r, dr⟩ := hw
        exact ⟨[], _, by simpa using Expr.Derives.applied hl operator dr⟩
      · rw [hm.node] at h
        obtain ⟨w, second, dr⟩ := ho (first.ended hs) hr
        refine (ih (.applied hl operator dr) (second.ended (first.ended hs)) h).behind
          (first.trans second) fun u hu => ⟨[], ?_⟩
        simpa using hu
    next => simp at h

theorem completable_tier (hm : tier.Matches level)
    (ho : Sound operand (Expr.Derives Token.line tighter))
    (hf : Completable operand (Spells tighter)) :
    Completable (Parsing.tier tier operand) (Spells (level :: tighter)) := by
  intro stream after error hs h
  rw [Parsing.tier, runOn_bind_error] at h
  rcases h with h | ⟨l, middle, hl, h⟩
  · refine (hf hs h).mono fun w hw => ?_
    obtain ⟨e, de⟩ := hw
    exact ⟨[], e, by simpa using Expr.Derives.single de⟩
  · obtain ⟨v, first, dl⟩ := ho hs hl
    rw [runOn_remaining_bind] at h
    refine (halts_chain hm ho hf _ (.single dl) (first.ended hs) h).behind first
      fun w hw => ⟨[], ?_⟩
    simpa using hw

end

theorem completable_tiers {operand : Parsing Expr}
    (ho : Sound operand (Expr.Derives Token.line [])) (hf : Completable operand (Spells [])) :
    Completable (tiers operand) (Spells Level.all) := by
  have hproduct := sound_tier Tier.matches_multiplicative ho
  have hsum := sound_tier Tier.matches_additive hproduct
  exact completable_tier Tier.matches_comparison hsum
    (completable_tier Tier.matches_additive hproduct
      (completable_tier Tier.matches_multiplicative ho hf))

-- ---------------------------------------------------------------------------
-- Operands and expressions
-- ---------------------------------------------------------------------------

inductive Parenthesized (phrase : List Token → Prop) : List Token → Prop
  | mk {opening closing : Token} (left : opening.kind = .leftParen) (inner : phrase w)
      (right : closing.kind = .rightParen) : Parenthesized phrase (opening :: (w ++ [closing]))

theorem exists_parenthesized (levels : List Level) : ∃ w, Parenthesized (Spells levels) w := by
  obtain ⟨w, hw⟩ := exists_spells levels
  let opening : Token := ⟨.leftParen, "", .start⟩
  let closing : Token := ⟨.rightParen, "", .start⟩
  have left : opening.kind = .leftParen := rfl
  have right : closing.kind = .rightParen := rfl
  exact ⟨_, .mk left hw right⟩

theorem halts_parenthesized {inner : Parsing Expr} {spelled : List Token → Expr → Prop}
    (hi : Sound inner spelled) (hf : Completable inner fun w => ∃ e, spelled w e)
    (hs : stream.Ended) (kind : (stream.peek 0).kind = .leftParen)
    (h : (parenthesized inner).runOn stream = (.error error, after)) :
    Halts (Parenthesized fun w => ∃ e, spelled w e) stream after error := by
  have first := TokenStream.passes_advance hs (by simp [kind])
  let closing : Token := ⟨.rightParen, "", .start⟩
  rw [parenthesized, runOn_take_bind, runOn_bind_error] at h
  rcases h with h | ⟨e, _, he, h⟩
  · exact (hf (first.ended hs) h).behind first fun w hw => ⟨[closing], .mk kind hw rfl⟩
  · obtain ⟨w, second, dw⟩ := hi (first.ended hs) he
    obtain ⟨-, rfl, rfl⟩ := runOn_eat_error.1 (runOn_return_error.1 h)
    exact halts_front (first.trans second) (by decide) ⟨[closing], .mk kind ⟨e, dw⟩ rfl⟩

theorem completable_operandWithin (bound : Nat) :
    Completable (operandWithin bound) (Spells []) := by
  have begins : Token.Begin (Spells []) [] := exists_spells []
  induction bound with
  | zero =>
    intro stream after error hs h
    exact halts_unexpected begins h
  | succ bound ih =>
    intro stream after error hs h
    simp only [operandWithin, runOn_peek_bind] at h
    split at h
    case h_1 kind =>
      split at h
      next text =>
        have first := TokenStream.passes_advance hs (by simp [kind])
        rw [runOn_take_bind, runOn_return_error] at h
        refine (ih (first.ended hs) h).behind first fun w hw => ?_
        obtain ⟨e, de⟩ := hw
        exact ⟨[], _, by simpa using Expr.Derives.negate kind text de⟩
      next => exact halts_unexpected begins h
    case h_2 | h_3 | h_4 => simp [runOn_map] at h
    case h_5 kind =>
      have ho := sound_operandWithin bound
      refine (halts_parenthesized (sound_tiers ho) (completable_tiers ho ih) hs kind h).mono
        fun w hw => ?_
      obtain ⟨left, ⟨e, de⟩, right⟩ := hw
      exact ⟨[], e, by simpa using Expr.Derives.parenthesized left de right⟩
    case h_6 => simp [identifier, runOn_map] at h
    case h_7 => exact halts_unexpected begins h

theorem completable_expression : Completable expression (Spells Level.all) := by
  refine completable_tiers sound_operand fun stream after error hs h => ?_
  rw [operand, runOn_remaining_bind] at h
  exact completable_operandWithin _ hs h

end Parsing

end Rech
