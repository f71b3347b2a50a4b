import Rech.Proofs.Grammar.Program

/-!
# Readers see no further than one token ahead

What a reader answers rests on the tokens that it took and on the one in front of
what it left. Another stream with the same tokens there is read alike, and where
reading fails on the one it fails on the other. Two failures rest on one token
more. Readers are compared with readers of the same kind, as those that count
have other bounds on another stream.
-/

namespace Rech

open Token (NoEnd)

/-- The number of tokens in front that a failure rests on. -/
def SyntaxError.Cause.lookahead : SyntaxError.Cause → Nat
  | .badDeclaration | .badAssignment => 2
  | _ => 1

theorem SyntaxError.Cause.one_le_lookahead (cause : SyntaxError.Cause) : 1 ≤ cause.lookahead := by
  unfold lookahead
  split <;> decide

namespace TokenStream

/-- A stream in front of an end of file. -/
structure Open (stream : TokenStream) : Prop where
  ended : stream.Ended
  endsList : Token.EndsList stream.ahead

/-- The tokens in front are the same ones, up to a number of them. -/
def Agrees (count : Nat) (stream other : TokenStream) : Prop :=
  stream.ahead.take count <+: other.ahead

variable {stream other after rear : TokenStream} {m n : Nat}

theorem Open.ne_nil (h : stream.Open) : stream.ahead ≠ [] := by
  intro hempty
  obtain ⟨last, hlast, -⟩ := h.endsList
  simp [hempty] at hlast

theorem Open.length_pos (h : stream.Open) : 0 < stream.ahead.length :=
  List.length_pos_iff.2 h.ne_nil

theorem Passes.open (h : stream.Passes w after) (hw : NoEnd w) (hs : stream.Open) :
    after.Open where
  ended := h.ended hs.ended
  endsList := by
    obtain ⟨last, hlast, hk⟩ := hs.endsList
    rw [h.ahead, List.getLast?_append] at hlast
    cases hrear : after.ahead.getLast? with
    | none =>
      rw [hrear] at hlast
      exact absurd hk (hw last (List.mem_of_getLast? hlast))
    | some rear =>
      rw [hrear] at hlast
      exact ⟨last, hrear.trans hlast, hk⟩

theorem Passes.one_lt_length (h : stream.Passes w after) (hw : NoEnd w) (hs : stream.Open)
    (hpos : 0 < w.length) : 1 < stream.ahead.length := by
  have := (h.open hw hs).length_pos
  have := h.length_ahead
  omega

theorem Open.one_lt_length (hs : stream.Open) (h : (stream.peek 1).kind ≠ .endOfFile) :
    1 < stream.ahead.length := by
  by_contra hshort
  have hpeek : stream.peek 1 = stream.last := by simp [peek, Nat.le_of_not_lt hshort]
  exact h (hpeek ▸ hs.ended)

theorem Passes.unique (h : stream.Passes v after) (h' : stream.Passes w after) : v = w :=
  List.append_cancel_right (h.ahead.symm.trans h'.ahead)

namespace Agrees

theorem mono (h : Agrees n stream other) (hmn : m ≤ n) : Agrees m stream other :=
  (List.take_prefix_take_left hmn).trans h

theorem behind (h : Agrees (w.length + n) stream other) (passed : stream.Passes w after)
    (passed' : other.Passes w rear) : Agrees n after rear := by
  rw [Agrees, passed.ahead, passed'.ahead, List.take_length_add_append] at h
  exact (List.prefix_append_right_inj w).1 h

theorem peek (h : Agrees n stream other) {distance : Nat} (hn : distance < n)
    (hlength : distance < stream.ahead.length) : other.peek distance = stream.peek distance := by
  obtain ⟨rest, hrest⟩ := h
  have hshort : distance < (stream.ahead.take n).length := by
    rw [List.length_take]
    omega
  have hsame : other.ahead[distance]? = stream.ahead[distance]? := by
    rw [← hrest, List.getElem?_append_left hshort, List.getElem?_take_of_lt hn]
  simp [TokenStream.peek, hsame, hlength]

theorem peek_zero (h : Agrees n stream other) (hn : 0 < n) (hs : stream.Open) :
    other.peek 0 = stream.peek 0 :=
  h.peek hn hs.length_pos

end Agrees

end TokenStream

namespace Parsing

def Passing (pre : TokenStream → Prop) (count : Nat) (parsing : Parsing α) : Prop :=
  ∀ ⦃stream : TokenStream⦄, stream.Open → pre stream →
    ∃ w, NoEnd w ∧ count ≤ w.length ∧ stream.Passes w (parsing.runOn stream).2

def Takes (pre : TokenStream → Prop) (count : Nat) (parsing : Parsing α) : Prop :=
  ∀ ⦃stream after w a⦄, stream.Open → pre stream → parsing.runOn stream = (.ok a, after) →
    stream.Passes w after → count ≤ w.length

def Behind (pre : TokenStream → Prop) (parsing : Parsing α) (a : α) (after : TokenStream) : Prop :=
  ∃ stream : TokenStream, stream.Open ∧ pre stream ∧ parsing.runOn stream = (.ok a, after)

theorem Passing.mono {parsing : Parsing α} {count few : Nat} (h : Passing pre count parsing)
    (hfew : few ≤ count) : Passing pre few parsing := by
  intro stream hs hp
  obtain ⟨w, hw, hcount, passed⟩ := h hs hp
  exact ⟨w, hw, Nat.le_trans hfew hcount, passed⟩

theorem Passing.bind {parsing : Parsing α} {f : α → Parsing β} {count : Nat}
    (h : Passing pre count parsing) (hf : ∀ a, Passing (Behind pre parsing a) 0 (f a)) :
    Passing pre count (parsing >>= f) := by
  intro stream hs hp
  obtain ⟨w, hw, hcount, passed⟩ := h hs hp
  rw [runOn_bind]
  rcases hrun : parsing.runOn stream with ⟨_ | a, middle⟩
  · rw [hrun] at passed
    exact ⟨w, hw, hcount, passed⟩
  · rw [hrun] at passed
    obtain ⟨u, hu, -, passed'⟩ := hf a (passed.open hw hs) ⟨stream, hs, hp, hrun⟩
    refine ⟨w ++ u, by simp [hw, hu], ?_, passed.trans passed'⟩
    rw [List.length_append]
    omega

theorem passing_take (hk : ∀ ⦃stream⦄, pre stream → (stream.peek 0).kind ≠ .endOfFile) :
    Passing pre 1 take := fun stream hs hp =>
  ⟨[stream.peek 0], by simpa using hk hp, Nat.le_refl 1,
    TokenStream.passes_advance hs.ended (hk hp)⟩

theorem takes_take : Takes pre 1 take := by
  intro stream after w token hs hp h passed
  obtain ⟨-, rfl⟩ := runOn_take_ok.1 h
  have hoffset := passed.offset
  rw [TokenStream.offset_advance] at hoffset
  omega

def Anywhere (_ : TokenStream) : Prop := True

def At (kind : Token.Kind) (stream : TokenStream) : Prop := (stream.peek 0).kind = kind

theorem Behind.expect (h : Behind pre (expect kind cause) u stream) : At kind stream := by
  obtain ⟨_, -, -, h⟩ := h
  obtain ⟨hk, rfl⟩ := runOn_expect_ok.1 h
  exact hk

/-- One reader compared with another, on streams that are not too long, the first
of which fulfils a condition. -/
structure Local (pre : TokenStream → Prop) (m n : Nat) (one two : Parsing α) : Prop where
  passes : Passing pre 0 one
  ok : ∀ ⦃stream other after w a⦄, stream.Open → other.Open → stream.ahead.length ≤ m →
    other.ahead.length ≤ n → pre stream → one.runOn stream = (.ok a, after) →
    stream.Passes w after → stream.Agrees (w.length + 1) other →
    ∃ rear, other.Passes w rear ∧ two.runOn other = (.ok a, rear)
  error : ∀ ⦃stream other after w error⦄, stream.Open → other.Open → stream.ahead.length ≤ m →
    other.ahead.length ≤ n → pre stream → one.runOn stream = (.error error, after) →
    stream.Passes w after → stream.Agrees (w.length + error.cause.lookahead) other →
    ∀ a rear, two.runOn other ≠ (.ok a, rear)

namespace Local

variable {pre pre' : TokenStream → Prop} {m n m' n' : Nat} {cause : SyntaxError.Cause}

theorem mono {one two : Parsing α} (h : Local pre m n one two) (hm : m' ≤ m) (hn : n' ≤ n)
    (hpre : ∀ ⦃stream⦄, pre' stream → pre stream) : Local pre' m' n' one two where
  passes _ hs hp := h.passes hs (hpre hp)
  ok _ _ _ _ _ hs ho hl hl' hp :=
    h.ok hs ho (Nat.le_trans hl hm) (Nat.le_trans hl' hn) (hpre hp)
  error _ _ _ _ _ hs ho hl hl' hp :=
    h.error hs ho (Nat.le_trans hl hm) (Nat.le_trans hl' hn) (hpre hp)

theorem shorter {one two : Parsing α} (h : Local pre m n one two) (hm : m' ≤ m) (hn : n' ≤ n) :
    Local pre m' n' one two :=
  h.mono hm hn fun _ hp => hp

theorem within {one two : Parsing α} (h : Local Anywhere m n one two) : Local pre m n one two :=
  h.mono (Nat.le_refl m) (Nat.le_refl n) fun _ _ => trivial

theorem seen {one two : Parsing α} (h : Local (At kind) m n one two) (hk : token.kind = kind) :
    Local (fun stream => pre stream ∧ stream.peek 0 = token) m n one two :=
  h.mono (Nat.le_refl m) (Nat.le_refl n) fun _ hp => (congrArg Token.kind hp.2).trans hk

theorem expected {one two : Parsing α} (h : Local (At kind) m n one two) :
    Local (Behind pre (expect kind cause) u) m n one two :=
  h.mono (Nat.le_refl m) (Nat.le_refl n) fun _ hp => hp.expect

protected theorem pure (a : α) : Local pre m n (pure a) (pure a) where
  passes stream hs hp := ⟨[], Token.noEnd_nil, Nat.le_refl 0, .refl _⟩
  ok stream other after w b hs ho hl hl' hp h passed agrees := by
    obtain ⟨rfl, rfl⟩ := runOn_pure_ok.1 h
    obtain rfl := passed.unique (.refl _)
    exact ⟨other, .refl _, rfl⟩
  error stream other after w error hs ho hl hl' hp h := by
    simp at h

protected theorem throw (error : SyntaxError) :
    Local pre m n (throw error : Parsing α) (throw error) where
  passes stream hs hp := ⟨[], Token.noEnd_nil, Nat.le_refl 0, .refl _⟩
  ok stream other after w a hs ho hl hl' hp h := by
    simp at h
  error stream other after w error hs ho hl hl' hp h passed agrees a rear := by
    simp

theorem behind {P Q : Parsing α} {f : α → Parsing β} {d k : Nat}
    (h : Local pre m' n' P Q) (takes : Takes pre d P) (hm : m' ≤ m + d) (hn : n' ≤ n + d)
    (hf : Passing (Behind pre P a) 0 (f a)) (hs : stream.Open) (ho : other.Open)
    (hl : stream.ahead.length ≤ m') (hl' : other.ahead.length ≤ n') (hp : pre stream)
    (hP : P.runOn stream = (.ok a, middle)) (hrest : (f a).runOn middle = (result, after))
    (passed : stream.Passes w after) (hk : 1 ≤ k) (agrees : stream.Agrees (w.length + k) other) :
    ∃ v u rest, w = v ++ u ∧ middle.Open ∧ rest.Open ∧ middle.ahead.length ≤ m ∧
      rest.ahead.length ≤ n ∧ other.Passes v rest ∧ Q.runOn other = (.ok a, rest) ∧
      middle.Passes u after ∧ middle.Agrees (u.length + k) rest := by
  obtain ⟨v, hv, -, first⟩ := h.passes hs hp
  replace first : stream.Passes v middle := by rwa [hP] at first
  have hmiddle := first.open hv hs
  obtain ⟨u, hu, -, second⟩ := hf hmiddle ⟨stream, hs, hp, hP⟩
  replace second : middle.Passes u after := by rwa [hrest] at second
  obtain rfl := passed.unique (first.trans second)
  rw [List.length_append, Nat.add_assoc] at agrees
  obtain ⟨rest, third, hQ⟩ := h.ok hs ho hl hl' hp hP first (agrees.mono (by omega))
  have hlength := first.length_ahead
  have hlength' := third.length_ahead
  have hd := takes hs hp hP first
  exact ⟨v, u, rest, rfl, hmiddle, third.open hv ho, by omega, by omega, third, hQ, second,
    agrees.behind first third⟩

protected theorem bind {P Q : Parsing α} {f g : α → Parsing β} (d : Nat)
    (h : Local pre m' n' P Q) (takes : Takes pre d P) (hm : m' ≤ m + d) (hn : n' ≤ n + d)
    (hf : ∀ a, Local (Behind pre P a) m n (f a) (g a)) :
    Local pre m' n' (P >>= f) (Q >>= g) where
  passes := h.passes.bind fun a => (hf a).passes
  ok stream other after w b hs ho hl hl' hp hrun passed agrees := by
    obtain ⟨a, middle, hP, hfa⟩ := runOn_bind_ok.1 hrun
    obtain ⟨v, u, rest, rfl, hmiddle, hrest, hlm, hlr, third, hQ, second, agrees'⟩ :=
      h.behind takes hm hn (hf a).passes hs ho hl hl' hp hP hfa passed (Nat.le_refl 1) agrees
    obtain ⟨rear, fourth, hg⟩ :=
      (hf a).ok hmiddle hrest hlm hlr ⟨stream, hs, hp, hP⟩ hfa second agrees'
    exact ⟨rear, third.trans fourth, runOn_bind_ok.2 ⟨a, rest, hQ, hg⟩⟩
  error stream other after w error hs ho hl hl' hp hrun passed agrees b rear hb := by
    obtain ⟨a', rest', hQ', hg'⟩ := runOn_bind_ok.1 hb
    rcases runOn_bind_error.1 hrun with hP | ⟨a, middle, hP, hfa⟩
    · exact h.error hs ho hl hl' hp hP passed agrees _ _ hQ'
    obtain ⟨v, u, rest, rfl, hmiddle, hrest, hlm, hlr, third, hQ, second, agrees'⟩ :=
      h.behind takes hm hn (hf a).passes hs ho hl hl' hp hP hfa passed
        error.cause.one_le_lookahead agrees
    obtain ⟨rfl, rfl⟩ : a = a' ∧ rest = rest' := by simpa [hQ] using hQ'
    exact (hf a).error hmiddle hrest hlm hlr ⟨stream, hs, hp, hP⟩ hfa second agrees' _ _ hg'

/-- Where it does not matter what the first of two readers takes. -/
protected theorem seq {P Q : Parsing α} {f g : α → Parsing β} (h : Local pre m n P Q)
    (hf : ∀ a, Local (Behind pre P a) m n (f a) (g a)) : Local pre m n (P >>= f) (Q >>= g) :=
  .bind 0 h (fun _ _ _ _ _ _ _ _ => Nat.zero_le _) (Nat.le_refl m) (Nat.le_refl n) hf

protected theorem peek {f g : Token → Parsing β}
    (h : ∀ token, Local (fun stream => pre stream ∧ stream.peek 0 = token) m n (f token)
      (g token)) : Local pre m n (Parsing.peek 0 >>= f) (Parsing.peek 0 >>= g) where
  passes stream hs hp := by
    rw [runOn_peek_bind]
    exact (h _).passes hs ⟨hp, rfl⟩
  ok stream other after w a hs ho hl hl' hp hrun passed agrees := by
    rw [runOn_peek_bind] at hrun
    rw [runOn_peek_bind, agrees.peek_zero (by omega) hs]
    exact (h _).ok hs ho hl hl' ⟨hp, rfl⟩ hrun passed agrees
  error stream other after w error hs ho hl hl' hp hrun passed agrees a rear := by
    have hk := error.cause.one_le_lookahead
    rw [runOn_peek_bind] at hrun
    rw [runOn_peek_bind, agrees.peek_zero (by omega) hs]
    exact (h _).error hs ho hl hl' ⟨hp, rfl⟩ hrun passed agrees a rear

protected theorem take (hk : ∀ ⦃stream⦄, pre stream → (stream.peek 0).kind ≠ .endOfFile) :
    Local pre m n Parsing.take Parsing.take where
  passes := (passing_take hk).mono (Nat.zero_le 1)
  ok stream other after w token hs ho hl hl' hp hrun passed agrees := by
    obtain ⟨rfl, rfl⟩ := runOn_take_ok.1 hrun
    have hpeek := agrees.peek_zero (Nat.succ_pos _) hs
    have first := TokenStream.passes_advance hs.ended (hk hp)
    have first' := TokenStream.passes_advance ho.ended (hpeek ▸ hk hp)
    obtain rfl := passed.unique first
    exact ⟨other.advance, hpeek ▸ first', by rw [runOn_take, hpeek]⟩
  error stream other after w error hs ho hl hl' hp hrun := by
    simp at hrun

theorem take_at (hk : kind ≠ .endOfFile) : Local (At kind) m n Parsing.take Parsing.take :=
  .take fun _ hp => hp ▸ hk

protected theorem fail (cause : SyntaxError.Cause) :
    Local pre m n (Parsing.fail cause : Parsing α) (Parsing.fail cause) :=
  .peek fun _ => .throw _

protected theorem expect (kind : Token.Kind) (cause : SyntaxError.Cause) :
    Local pre m n (Parsing.expect kind cause) (Parsing.expect kind cause) := by
  refine .peek fun token => ?_
  split
  · exact .pure ()
  · exact .fail cause

protected theorem eat (hk : kind ≠ .endOfFile) (cause : SyntaxError.Cause) :
    Local pre m n (Parsing.eat kind cause) (Parsing.eat kind cause) := by
  refine .peek fun token => ?_
  split
  next hkind => exact (take_at hk).seen hkind
  next => exact .fail cause

protected theorem semicolon : Local pre m n Parsing.semicolon Parsing.semicolon :=
  .seq (.eat (by decide) _) fun _ => .pure ()

protected theorem unexpected :
    Local pre m n (Parsing.unexpected : Parsing α) Parsing.unexpected :=
  .peek fun _ => .fail _

theorem branch {way : TokenStream → Prop} [DecidablePred way] {one yes no : Parsing α}
    (run : ∀ stream, one.runOn stream = if way stream then yes.runOn stream else no.runOn stream)
    (hyes : Local (fun stream => pre stream ∧ way stream) m n yes yes)
    (hno : Local (fun stream => pre stream ∧ ¬ way stream) m n no no)
    (same : ∀ ⦃stream other after w a⦄, stream.Open → one.runOn stream = (.ok a, after) →
      stream.Passes w after → stream.Agrees (w.length + 1) other → (way other ↔ way stream))
    (lost : ∀ ⦃stream other after w error a rear⦄, stream.Open →
      one.runOn stream = (.error error, after) → stream.Passes w after →
      stream.Agrees (w.length + error.cause.lookahead) other →
      one.runOn other = (.ok a, rear) → (way other ↔ way stream)) : Local pre m n one one where
  passes stream hs hp := by
    rw [run]
    split
    next h => exact hyes.passes hs ⟨hp, h⟩
    next h => exact hno.passes hs ⟨hp, h⟩
  ok stream other after w a hs ho hl hl' hp hrun passed agrees := by
    have hway := same hs hrun passed agrees
    rw [run] at hrun
    rw [run, if_congr hway rfl rfl]
    split at hrun
    next h => simpa only [if_pos h] using hyes.ok hs ho hl hl' ⟨hp, h⟩ hrun passed agrees
    next h => simpa only [if_neg h] using hno.ok hs ho hl hl' ⟨hp, h⟩ hrun passed agrees
  error stream other after w error hs ho hl hl' hp hrun passed agrees a rear hok := by
    have hway := lost hs hrun passed agrees hok
    rw [run] at hrun
    rw [run, if_congr hway rfl rfl] at hok
    split at hrun
    next h =>
      rw [if_pos h] at hok
      exact hyes.error hs ho hl hl' ⟨hp, h⟩ hrun passed agrees _ _ hok
    next h =>
      rw [if_neg h] at hok
      exact hno.error hs ho hl hl' ⟨hp, h⟩ hrun passed agrees _ _ hok

protected theorem remaining {f g : Nat → Parsing β}
    (h : ∀ bound bound', Local pre (min bound m) (min bound' n) (f bound) (g bound')) :
    Local pre m n (Parsing.remaining >>= f) (Parsing.remaining >>= g) where
  passes stream hs hp := by
    rw [runOn_remaining_bind]
    exact (h _ 0).passes hs hp
  ok stream other after w a hs ho hl hl' hp hrun passed agrees := by
    rw [runOn_remaining_bind] at hrun ⊢
    exact (h _ _).ok hs ho (Nat.le_min.2 ⟨Nat.le_refl _, hl⟩) (Nat.le_min.2 ⟨Nat.le_refl _, hl'⟩) hp
      hrun passed agrees
  error stream other after w error hs ho hl hl' hp hrun passed agrees := by
    rw [runOn_remaining_bind] at hrun ⊢
    exact (h _ _).error hs ho (Nat.le_min.2 ⟨Nat.le_refl _, hl⟩)
      (Nat.le_min.2 ⟨Nat.le_refl _, hl'⟩) hp hrun passed agrees

theorem of_passing {one two : Parsing α} (passes : Passing pre 0 one) (h : m = 0 ∨ n = 0) :
    Local pre m n one two where
  passes := passes
  ok stream other _ _ _ hs ho hl hl' := by
    have := hs.length_pos
    have := ho.length_pos
    omega
  error stream other _ _ _ hs ho hl hl' := by
    have := hs.length_pos
    have := ho.length_pos
    omega

theorem of_bounds (P Q : Nat → ι → Parsing α) (size size' : Nat → Nat) (hsize : size 0 = 0)
    (hsize' : size' 0 = 0) (start : ∀ i, Passing pre 0 (P 0 i))
    (step : ∀ bound bound',
      (∀ i, Local pre (size bound) (size' bound') (P bound i) (Q bound' i)) →
      ∀ i, Local pre (size (bound + 1)) (size' (bound' + 1)) (P (bound + 1) i)
        (Q (bound' + 1) i)) (bound : Nat) :
    ∀ bound' i, Local pre (size bound) (size' bound') (P bound i) (Q bound' i) := by
  induction bound with
  | zero => exact fun bound' i => .of_passing (start i) (.inl hsize)
  | succ bound ih =>
    intro bound' i
    cases bound' with
    | zero => exact .of_passing (step bound 0 (ih 0) i).passes (.inr hsize')
    | succ bound' => exact step bound bound' (ih bound') i

end Local

end Parsing

end Rech
