import Rech.Token.Stream

/-!
# Passing tokens of a stream

`stream.Passes w after` says that `after` is the stream behind the tokens `w`
that stand in front of `stream`. What a reader of trees takes is described by
it, and looking ahead sees the tokens that are passed.
-/

namespace Rech.TokenStream

@[simp] theorem ahead_advance (stream : TokenStream) :
    stream.advance.ahead = stream.ahead.tail := rfl
@[simp] theorem offset_advance (stream : TokenStream) :
    stream.advance.offset = stream.offset + 1 := rfl

/-- Behind the end of the list the end of the file is seen. -/
def Ended (stream : TokenStream) : Prop := stream.last.kind = .endOfFile

structure Passes (stream : TokenStream) (w : List Token) (after : TokenStream) : Prop where
  tokens : after.tokens = stream.tokens
  ahead : stream.ahead = w ++ after.ahead
  last : after.last = stream.last
  offset : after.offset = stream.offset + w.length

namespace Passes

variable {stream after : TokenStream}

theorem ended (h : stream.Passes w after) (hs : stream.Ended) : after.Ended := by
  rw [Ended, h.last]
  exact hs

theorem trans {middle : TokenStream} (first : stream.Passes v middle)
    (second : middle.Passes w after) : stream.Passes (v ++ w) after where
  tokens := second.tokens.trans first.tokens
  ahead := by rw [first.ahead, second.ahead, List.append_assoc]
  last := second.last.trans first.last
  offset := by rw [second.offset, first.offset, List.length_append, Nat.add_assoc]

theorem cons (h : stream.ahead = token :: rest) (second : stream.advance.Passes w after) :
    stream.Passes (token :: w) after where
  tokens := second.tokens
  ahead := by
    have hr : rest = w ++ after.ahead := by simpa [h] using second.ahead
    rw [h, hr, List.cons_append]
  last := second.last
  offset := by rw [second.offset, offset_advance, List.length_cons]; omega

@[simp] theorem nil_iff : stream.Passes [] after ↔ after = stream := by
  constructor
  · intro h
    obtain ⟨ht, ha, hl, ho⟩ := h
    cases stream
    cases after
    simp_all
  · rintro rfl
    exact ⟨rfl, rfl, rfl, rfl⟩

theorem refl (stream : TokenStream) : stream.Passes [] stream := nil_iff.2 rfl

@[simp] theorem cons_iff : stream.Passes (token :: w) after ↔
    stream.ahead.head? = some token ∧ stream.advance.Passes w after := by
  constructor
  · intro h
    have hs : stream.ahead = token :: (w ++ after.ahead) := h.ahead
    refine ⟨by rw [hs]; rfl, h.tokens, by rw [ahead_advance, hs]; rfl, h.last, ?_⟩
    rw [h.offset, offset_advance, List.length_cons]
    omega
  · rintro ⟨hh, hw⟩
    obtain ⟨rest, hs⟩ := List.head?_eq_some_iff.1 hh
    exact .cons hs hw

theorem advance_eq (h : stream.Passes [token] after) : stream.advance = after :=
  (nil_iff.1 (cons_iff.1 h).2).symm

theorem append_iff : stream.Passes (v ++ w) after ↔
    ∃ middle, stream.Passes v middle ∧ middle.Passes w after := by
  constructor
  · intro h
    induction v generalizing stream with
    | nil => exact ⟨stream, .refl _, h⟩
    | cons token v ih =>
      obtain ⟨hh, hv⟩ := cons_iff.1 h
      obtain ⟨middle, h₁, h₂⟩ := ih hv
      exact ⟨middle, cons_iff.2 ⟨hh, h₁⟩, h₂⟩
  · rintro ⟨middle, h₁, h₂⟩
    exact h₁.trans h₂

theorem length_ahead (h : stream.Passes w after) :
    stream.ahead.length = w.length + after.ahead.length := by
  rw [h.ahead, List.length_append]

theorem peek (h : stream.Passes (token :: w) after) : stream.peek 0 = token := by
  simp [TokenStream.peek, h.ahead]

theorem peek_one (h : stream.Passes (token :: next :: w) after) : stream.peek 1 = next := by
  simp [TokenStream.peek, h.ahead]

end Passes

theorem peek_eq_last {stream : TokenStream} (h : stream.ahead = []) :
    stream.peek 0 = stream.last := by
  simp [peek, h]

theorem peek_zero_advance (stream : TokenStream) : stream.advance.peek 0 = stream.peek 1 := by
  simp [peek, advance]

theorem passes_advance {stream : TokenStream} (hs : stream.Ended)
    (hk : (stream.peek 0).kind ≠ .endOfFile) :
    stream.Passes [stream.peek 0] stream.advance := by
  cases ha : stream.ahead with
  | nil =>
    rw [peek_eq_last ha] at hk
    exact absurd hs hk
  | cons token rest =>
    have hp : stream.peek 0 = token := by simp [peek, ha]
    rw [hp]
    exact .cons ha (.refl _)

end Rech.TokenStream
