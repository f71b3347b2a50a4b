import Rech.Proofs.Parsing.Locality

/-!
# Positions in a list of tokens

A stream that was made from a list can be put at any of its positions, and advancing
moves it by one. What is passed from a position on is the slice up to the new
position. The stream is open as long as a token is left.
-/

namespace Rech

open Token (EndsList NoEnd)

namespace TokenStream

def seek (stream : TokenStream) (position : Nat) : TokenStream where
  tokens := stream.tokens
  ahead := stream.tokens.drop position
  last := stream.last
  offset := position

variable {stream after : TokenStream} {w : List Token} {p : Nat}

@[simp] theorem ahead_seek (stream : TokenStream) (p : Nat) :
    (stream.seek p).ahead = stream.tokens.drop p := rfl
@[simp] theorem offset_seek (stream : TokenStream) (p : Nat) : (stream.seek p).offset = p := rfl

theorem advance_seek (stream : TokenStream) (p : Nat) :
    (stream.seek p).advance = stream.seek (p + 1) := by
  simp [seek, advance]

theorem Ended.seek (h : stream.Ended) (p : Nat) : (stream.seek p).Ended := h

theorem exists_tokens {tokens : List Token} (ends : EndsList tokens) :
    ∃ stream, ofTokens tokens = .ok stream ∧ stream.tokens = tokens ∧ stream.Ended := by
  obtain ⟨last, hlast, hk⟩ := ends
  exact ⟨_, ofTokens_of_getLast? hlast hk, rfl, hk⟩

theorem open_seek (hs : stream.Ended) (ends : EndsList stream.tokens)
    (h : p < stream.tokens.length) : (stream.seek p).Open where
  ended := hs
  endsList := ends.drop h

theorem lt_length_of_open (h : (stream.seek p).Open) : p < stream.tokens.length := by
  have hpos := h.length_pos
  rw [ahead_seek, List.length_drop] at hpos
  omega

theorem passes_seek_iff : (stream.seek p).Passes w after ↔
    after = stream.seek (p + w.length) ∧ w <+: stream.tokens.drop p := by
  constructor
  · rintro ⟨htokens, hahead, hlast, hoffset⟩
    refine ⟨?_, after.ahead, hahead.symm⟩
    have hrest : after.ahead = stream.tokens.drop (p + w.length) := by
      rw [← List.drop_drop, ← ahead_seek, hahead, List.drop_left]
    cases after
    simp_all [seek]
  · rintro ⟨rfl, rest, hrest⟩
    refine ⟨rfl, ?_, rfl, rfl⟩
    rw [ahead_seek, ahead_seek, ← List.drop_drop, ← hrest, List.drop_left]

theorem Passes.extract_eq (h : (stream.seek p).Passes w after) :
    stream.tokens.extract p after.offset = w := by
  obtain ⟨rfl, hw⟩ := passes_seek_iff.1 h
  rw [offset_seek, List.extract, Nat.add_sub_cancel_left]
  exact (List.prefix_iff_eq_take.1 hw).symm

theorem passes_extract {q : Nat} (hle : p ≤ q) (hq : q ≤ stream.tokens.length) :
    (stream.seek p).Passes (stream.tokens.extract p q) (stream.seek q) := by
  refine passes_seek_iff.2 ⟨?_, List.take_prefix _ _⟩
  rw [List.extract, List.length_take, List.length_drop]
  congr 1
  omega

theorem getElem?_eq_peek (h : p < stream.tokens.length) :
    stream.tokens[p]? = some ((stream.seek p).peek 0) := by
  simp [peek, h]

end TokenStream

end Rech
