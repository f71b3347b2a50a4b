import Rech.Parsing.Basic
import Rech.Proofs.Token.Stream

/-!
# What a reader of trees accepts

A phrase is a relation between tokens and the tree they spell. A reader is
sound for a phrase if whatever it answers is spelled by the tokens it took. It
is complete up to a bound if it takes every spelling that is not longer and
that a fitting token follows. Both notions compose along `do`, so that each
reader is judged by the readers it is made of.
-/

namespace Rech.Parsing

def Sound (parsing : Parsing α) (phrase : List Token → α → Prop) : Prop :=
  ∀ ⦃stream after value⦄, stream.Ended → parsing.runOn stream = (.ok value, after) →
    ∃ w, stream.Passes w after ∧ phrase w value

def Complete (bound : Nat) (parsing : Parsing α) (phrase : List Token → α → Prop)
    (follow : Token → Prop) : Prop :=
  ∀ ⦃stream after w value⦄, phrase w value → w.length ≤ bound → stream.Passes w after →
    follow (after.peek 0) → parsing.runOn stream = (.ok value, after)

-- ---------------------------------------------------------------------------
-- Runs that succeed
-- ---------------------------------------------------------------------------

theorem runOn_bind_ok {parsing : Parsing α} {f : α → Parsing β} :
    (parsing >>= f).runOn stream = (.ok b, after) ↔
      ∃ a middle, parsing.runOn stream = (.ok a, middle) ∧ (f a).runOn middle = (.ok b, after) := by
  rw [runOn_bind]
  rcases parsing.runOn stream with ⟨_ | a, middle⟩
  · simp
  · constructor
    · intro h
      exact ⟨a, middle, rfl, h⟩
    · rintro ⟨_, _, h, hf⟩
      cases h
      exact hf

theorem runOn_map (f : α → β) (parsing : Parsing α) (stream : TokenStream) :
    (f <$> parsing).runOn stream =
      match parsing.runOn stream with
      | (.ok a, after) => (.ok (f a), after)
      | (.error error, after) => (.error error, after) := by
  rw [map_eq_pure_bind, runOn_bind]
  rfl

theorem runOn_pure_ok {a b : α} :
    (pure a : Parsing α).runOn stream = (.ok b, after) ↔ a = b ∧ stream = after := by
  simp

theorem runOn_peek_ok :
    (peek distance).runOn stream = (.ok token, after) ↔
      stream.peek distance = token ∧ stream = after := by
  simp

theorem runOn_take_ok :
    take.runOn stream = (.ok token, after) ↔ stream.peek 0 = token ∧ stream.advance = after := by
  simp

@[simp] theorem runOn_throw (error : SyntaxError) (stream : TokenStream) :
    (throw error : Parsing α).runOn stream = (.error error, stream) := rfl

@[simp] theorem runOn_remaining (stream : TokenStream) :
    remaining.runOn stream = (.ok stream.ahead.length, stream) := rfl

theorem runOn_remaining_ok :
    remaining.runOn stream = (.ok n, after) ↔ stream.ahead.length = n ∧ stream = after := by
  simp

theorem runOn_eat_ok : (eat kind cause).runOn stream = (.ok token, after) ↔
    (stream.peek 0).kind = kind ∧ stream.peek 0 = token ∧ stream.advance = after := by
  simp only [eat, runOn_bind, runOn_peek]
  split <;> simp_all

theorem runOn_expect_ok : (expect kind cause).runOn stream = (.ok u, after) ↔
    (stream.peek 0).kind = kind ∧ stream = after := by
  simp only [expect, runOn_bind, runOn_peek]
  split <;> simp_all

theorem runOn_semicolon_ok : semicolon.runOn stream = (.ok u, after) ↔
    (stream.peek 0).kind = .semicolon ∧ stream.advance = after := by
  simp only [semicolon, runOn_bind_ok, runOn_eat_ok, runOn_pure_ok]
  constructor
  · rintro ⟨_, _, ⟨hk, -, rfl⟩, -, rfl⟩
    exact ⟨hk, rfl⟩
  · rintro ⟨hk, rfl⟩
    exact ⟨_, _, ⟨hk, rfl, rfl⟩, trivial, rfl⟩

-- ---------------------------------------------------------------------------
-- Runs that fail
-- ---------------------------------------------------------------------------

theorem runOn_bind_error {parsing : Parsing α} {f : α → Parsing β} :
    (parsing >>= f).runOn stream = (.error error, after) ↔
      parsing.runOn stream = (.error error, after) ∨
      ∃ a middle, parsing.runOn stream = (.ok a, middle) ∧
        (f a).runOn middle = (.error error, after) := by
  rw [runOn_bind]
  rcases parsing.runOn stream with ⟨failed | a, middle⟩
  · simp
  · constructor
    · intro h
      exact .inr ⟨a, middle, rfl, h⟩
    · rintro (h | ⟨_, _, h, hf⟩)
      · cases h
      · cases h
        exact hf

theorem runOn_pure_error {a : α} :
    (pure a : Parsing α).runOn stream = (.error error, after) ↔ False := by
  simp

theorem runOn_fail_error : (fail cause : Parsing α).runOn stream = (.error error, after) ↔
    ⟨cause, some (stream.peek 0).place⟩ = error ∧ stream = after := by
  simp

theorem runOn_eat_error : (eat kind cause).runOn stream = (.error error, after) ↔
    (stream.peek 0).kind ≠ kind ∧ ⟨cause, some (stream.peek 0).place⟩ = error ∧
      stream = after := by
  simp only [eat, runOn_bind, runOn_peek]
  split <;> simp_all

theorem runOn_expect_error : (expect kind cause).runOn stream = (.error error, after) ↔
    (stream.peek 0).kind ≠ kind ∧ ⟨cause, some (stream.peek 0).place⟩ = error ∧
      stream = after := by
  simp only [expect, runOn_bind, runOn_peek]
  split <;> simp_all

theorem runOn_semicolon_error : semicolon.runOn stream = (.error error, after) ↔
    (stream.peek 0).kind ≠ .semicolon ∧
      ⟨.missingSemicolon, some (stream.peek 0).place⟩ = error ∧ stream = after := by
  simp only [semicolon, runOn_bind_error, runOn_eat_error, runOn_pure_error, and_false,
    exists_false, or_false]

theorem runOn_return_error {parsing : Parsing α} {f : α → β} :
    (do return f (← parsing) : Parsing β).runOn stream = (.error error, after) ↔
      parsing.runOn stream = (.error error, after) := by
  simp only [runOn_bind_error, runOn_pure_error, and_false, exists_false, or_false]

-- ---------------------------------------------------------------------------
-- Runs that go on
-- ---------------------------------------------------------------------------

theorem runOn_take_bind (f : Token → Parsing β) (stream : TokenStream) :
    (take >>= f).runOn stream = (f (stream.peek 0)).runOn stream.advance := by
  rw [runOn_bind, runOn_take]

theorem runOn_peek_bind (f : Token → Parsing β) (distance : Nat) (stream : TokenStream) :
    (peek distance >>= f).runOn stream = (f (stream.peek distance)).runOn stream := by
  rw [runOn_bind, runOn_peek]

theorem runOn_remaining_bind (f : Nat → Parsing β) (stream : TokenStream) :
    (remaining >>= f).runOn stream = (f stream.ahead.length).runOn stream := by
  rw [runOn_bind, runOn_remaining]

theorem runOn_expect_bind (hk : (stream.peek 0).kind = kind) (f : Unit → Parsing β) :
    (expect kind cause >>= f).runOn stream = (f ()).runOn stream := by
  rw [runOn_bind, (runOn_expect_ok (u := ())).2 ⟨hk, rfl⟩]

end Rech.Parsing
