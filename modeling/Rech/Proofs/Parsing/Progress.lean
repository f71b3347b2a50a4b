import Rech.Proofs.Parsing.Alike
import Rech.Proofs.Parsing.Maximal

/-!
# Readers of trees make progress

From a position of a list of tokens on, a reader of trees that answers has taken
tokens, and no reader takes the first end of file, whether it answers or fails. So
there are never more rounds than tokens, and programs are read up to the end. A cursor
that is moved by readers and by single steps never goes back, past the last token
either, where readers fail at once.
-/

namespace Rech

open Token (EndsList NoEnd)

-- ---------------------------------------------------------------------------
-- The first end of file
-- ---------------------------------------------------------------------------

/-- The first end of file at a position or behind it. -/
structure Token.FirstEnd (tokens : List Token) (position stop : Nat) : Prop where
  le : position ≤ stop
  isEnd : ∃ token, tokens[stop]? = some token ∧ token.kind = .endOfFile
  first : ∀ index token, position ≤ index → index < stop → tokens[index]? = some token →
    token.kind ≠ .endOfFile

theorem Token.exists_firstEnd {tokens : List Token} {p : Nat} (ends : EndsList tokens)
    (hp : p < tokens.length) : ∃ stop, FirstEnd tokens p stop := by
  obtain ⟨before, token, rest, hbefore, hsplit, hk⟩ : ∃ before token rest, NoEnd before ∧
      tokens.drop p = before ++ token :: rest ∧ token.kind = .endOfFile := by
    obtain ⟨token, rest, hsplit, hk⟩ := exists_append_of_endsList (ends.drop hp)
    exact ⟨_, token, rest, noEnd_beforeEnd _, hsplit, hk⟩
  refine ⟨p + before.length, Nat.le_add_right .., ⟨token, ?_, hk⟩, ?_⟩
  · rw [← List.getElem?_drop, hsplit, List.getElem?_append_right (Nat.le_refl _), Nat.sub_self]
    rfl
  · intro index other hle hlt hother
    obtain ⟨i, rfl⟩ := Nat.exists_eq_add_of_le hle
    rw [← List.getElem?_drop, hsplit, List.getElem?_append_left (by omega)] at hother
    exact hbefore other (List.mem_of_getElem? hother)

namespace TokenStream

variable {stream after : TokenStream} {w : List Token} {p stop : Nat}

theorem Passes.offset_le (passed : (stream.seek p).Passes w after) (hw : NoEnd w)
    (h : Token.FirstEnd stream.tokens p stop) : after.offset ≤ stop := by
  obtain ⟨token, htoken, hk⟩ := h.isEnd
  obtain ⟨rfl, rest, hrest⟩ := passes_seek_iff.1 passed
  refine Nat.le_of_not_lt fun hlt => ?_
  obtain ⟨i, hi⟩ := Nat.exists_eq_add_of_le h.le
  rw [hi, ← List.getElem?_drop, ← hrest, List.getElem?_append_left] at htoken
  · exact hw token (List.mem_of_getElem? htoken) hk
  · rw [offset_seek] at hlt
    omega

theorem Passes.offset_eq (passed : (stream.seek p).Passes w after) (hw : NoEnd w)
    (h : Token.FirstEnd stream.tokens p stop) (hend : (after.peek 0).kind = .endOfFile) :
    after.offset = stop := by
  refine Nat.le_antisymm (passed.offset_le hw h) (Nat.le_of_not_lt fun hlt => ?_)
  obtain ⟨token, htoken, -⟩ := h.isEnd
  have hlength := (List.getElem?_eq_some_iff.1 htoken).1
  obtain ⟨rfl, -⟩ := passes_seek_iff.1 passed
  rw [offset_seek] at hlt
  exact h.first _ _ (Nat.le_add_right ..) hlt
    (getElem?_eq_peek (Nat.lt_trans hlt hlength)) hend

end TokenStream

namespace Parsing

-- ---------------------------------------------------------------------------
-- Readers
-- ---------------------------------------------------------------------------

/-- A reader goes on when it answers, and stays where it is or goes on when it fails,
up to a limit. -/
def Progresses (parsing : Parsing α) (stream : TokenStream) (limit : Nat) : Prop :=
  match parsing.runOn stream with
  | (.ok _, after) => stream.offset < after.offset ∧ after.offset ≤ limit
  | (.error _, after) => stream.offset ≤ after.offset ∧ after.offset ≤ limit

variable {stream after : TokenStream} {p stop : Nat} {levels : List Level} {parsing : Parsing Expr}

theorem progresses_of_passing {parsing : Parsing α} (passes : Passing Anywhere 0 parsing)
    (takes : Takes Anywhere 1 parsing) (hs : (stream.seek p).Open)
    (h : Token.FirstEnd stream.tokens p stop) : Progresses parsing (stream.seek p) stop := by
  obtain ⟨w, hw, -, passed⟩ := passes hs trivial
  rw [Progresses]
  rcases hrun : parsing.runOn (stream.seek p) with ⟨_ | a, after⟩
  all_goals
    replace passed : (stream.seek p).Passes w after := by rwa [hrun] at passed
    have hle := passed.offset_le hw h
    have hoffset := passed.offset
  · exact ⟨by omega, hle⟩
  · have hcount := takes hs trivial hrun passed
    exact ⟨by omega, hle⟩

theorem passing_statement : Passing Anywhere 0 statement :=
  (local_statement (m := 0) (n := 0)).passes

theorem ReadsLevels.passing (h : ReadsLevels levels parsing) : Passing Anywhere 0 parsing := by
  cases h with
  | expression => exact (local_expression (m := 0) (n := 0)).passes
  | sum => exact (local_sum (m := 0) (n := 0)).passes
  | product => exact (local_product (m := 0) (n := 0)).passes
  | operand => exact (local_operand (m := 0) (n := 0)).passes

theorem ReadsLevels.takes (h : ReadsLevels levels parsing) : Takes Anywhere 1 parsing :=
  takes_of_spelled h.readsWhole.sound fun de => by
    obtain ⟨token, rest, rfl, -⟩ := de.exists_cons
    exact Nat.succ_pos _

theorem offset_of_program {read : Program} (hs : stream.Ended)
    (h : Token.FirstEnd stream.tokens p stop)
    (hrun : program.runOn (stream.seek p) = (.ok read, after)) : after.offset = stop := by
  obtain ⟨w, passed, dw, hend⟩ := sound_program (hs.seek p) hrun
  exact passed.offset_eq (Stmt.DerivesAll.noEnd dw) h hend

-- ---------------------------------------------------------------------------
-- Past the last token
-- ---------------------------------------------------------------------------

def Stuck (parsing : Parsing α) : Prop :=
  ∀ ⦃stream⦄, stream.ahead = [] → ∃ error, parsing.runOn stream = (.error error, stream)

theorem stuck_operand : Stuck operand := by
  intro stream hempty
  rw [operand, runOn_remaining_bind, hempty]
  exact ⟨_, rfl⟩

theorem stuck_tier {tier : Tier} {operand : Parsing Expr} (h : Stuck operand) :
    Stuck (Parsing.tier tier operand) := by
  intro stream hempty
  obtain ⟨error, hrun⟩ := h hempty
  exact ⟨error, by rw [Parsing.tier, runOn_bind, hrun]⟩

theorem ReadsLevels.stuck (h : ReadsLevels levels parsing) : Stuck parsing := by
  cases h with
  | expression => exact stuck_tier (stuck_tier (stuck_tier stuck_operand))
  | sum => exact stuck_tier (stuck_tier stuck_operand)
  | product => exact stuck_tier stuck_operand
  | operand => exact stuck_operand

theorem stuck_statement : Stuck statement := by
  intro stream hempty
  rw [statement, runOn_remaining_bind, hempty]
  exact ⟨_, rfl⟩

end Parsing

-- ---------------------------------------------------------------------------
-- Cursors
-- ---------------------------------------------------------------------------

/-- What a cursor in a list of tokens can be told to do. -/
inductive CursorStep where
  | look (distance : Int)
  | take
  | eat (kind : Token.Kind) (cause : SyntaxError.Cause)
  | atEnd
  | semicolon
  | statement
  | expression
  | sum
  | product
  | operand

namespace CursorStep

/-- The stream that a step leaves, whether it answers or fails. -/
def after (stream : TokenStream) : CursorStep → TokenStream
  | .look distance => (Parsing.runOn (do return (← get).look distance) stream).2
  | .take => (Parsing.take.runOn stream).2
  | .eat kind cause => ((Parsing.eat kind cause).runOn stream).2
  | .atEnd => (Parsing.atEnd.runOn stream).2
  | .semicolon => (Parsing.semicolon.runOn stream).2
  | .statement => (Parsing.statement.runOn stream).2
  | .expression => (Parsing.expression.runOn stream).2
  | .sum => (Parsing.sum.runOn stream).2
  | .product => (Parsing.product.runOn stream).2
  | .operand => (Parsing.operand.runOn stream).2

def trail (stream : TokenStream) : List CursorStep → List TokenStream
  | [] => [stream]
  | step :: steps => stream :: trail (step.after stream) steps

variable {stream : TokenStream}

theorem exists_seek_of_passing {parsing : Parsing α} (hs : stream.Ended)
    (ends : EndsList stream.tokens) (passes : Parsing.Passing Parsing.Anywhere 0 parsing)
    (stuck : Parsing.Stuck parsing) (p : Nat) :
    ∃ q, p ≤ q ∧ (parsing.runOn (stream.seek p)).2 = stream.seek q := by
  by_cases hp : p < stream.tokens.length
  · obtain ⟨w, -, -, passed⟩ := passes (TokenStream.open_seek hs ends hp) trivial
    exact ⟨_, Nat.le_add_right .., (TokenStream.passes_seek_iff.1 passed).1⟩
  · have hempty : (stream.seek p).ahead = [] := List.drop_eq_nil_of_le (Nat.le_of_not_lt hp)
    obtain ⟨error, hrun⟩ := stuck hempty
    exact ⟨p, Nat.le_refl p, by rw [hrun]⟩

theorem exists_seek_eat (kind : Token.Kind) (cause : SyntaxError.Cause) (p : Nat) :
    ∃ q, p ≤ q ∧ ((Parsing.eat kind cause).runOn (stream.seek p)).2 = stream.seek q := by
  rw [Parsing.eat, Parsing.runOn_peek_bind]
  split
  next => exact ⟨p + 1, Nat.le_succ p, stream.advance_seek p⟩
  next => exact ⟨p, Nat.le_refl p, rfl⟩

theorem exists_seek_after (hs : stream.Ended) (ends : EndsList stream.tokens)
    (step : CursorStep) (p : Nat) : ∃ q, p ≤ q ∧ step.after (stream.seek p) = stream.seek q := by
  have expression {levels : List Level} {parsing : Parsing Expr}
      (h : Parsing.ReadsLevels levels parsing) :=
    exists_seek_of_passing hs ends h.passing h.stuck p
  cases step with
  | look | atEnd => exact ⟨p, Nat.le_refl p, rfl⟩
  | take => exact ⟨p + 1, Nat.le_succ p, stream.advance_seek p⟩
  | eat kind cause => exact exists_seek_eat kind cause p
  | semicolon =>
    obtain ⟨q, hq, heat⟩ := @exists_seek_eat stream .semicolon .missingSemicolon p
    refine ⟨q, hq, ?_⟩
    rw [after, Parsing.semicolon, Parsing.runOn_bind, ← heat]
    split <;> simp_all
  | statement =>
    exact exists_seek_of_passing hs ends Parsing.passing_statement Parsing.stuck_statement p
  | expression => exact expression .expression
  | sum => exact expression .sum
  | product => exact expression .product
  | operand => exact expression .operand

theorem pairwise_offset_trail (hs : stream.Ended) (ends : EndsList stream.tokens)
    (steps : List CursorStep) (p : Nat) :
    ((trail (stream.seek p) steps).map TokenStream.offset).Pairwise (· ≤ ·) ∧
      ∀ offset ∈ (trail (stream.seek p) steps).map TokenStream.offset, p ≤ offset := by
  induction steps generalizing p with
  | nil => simp [trail]
  | cons step steps ih =>
    obtain ⟨q, hq, hafter⟩ := exists_seek_after hs ends step p
    obtain ⟨hsorted, hbound⟩ := ih q
    rw [trail, hafter, List.map_cons, TokenStream.offset_seek, List.pairwise_cons,
      List.forall_mem_cons]
    have hlater : ∀ offset ∈ (trail (stream.seek q) steps).map TokenStream.offset, p ≤ offset :=
      fun offset hmem => Nat.le_trans hq (hbound offset hmem)
    exact ⟨⟨hlater, hsorted⟩, Nat.le_refl p, hlater⟩

end CursorStep

namespace Parsing

/-- What the readers of trees do on a stream whose first end of file is at a position. -/
structure Advances (stream : TokenStream) (stop : Nat) : Prop where
  statement : Progresses statement stream stop
  expression : ∀ {levels parsing}, ReadsLevels levels parsing → Progresses parsing stream stop
  program : ∀ {read after}, program.runOn stream = (.ok read, after) → after.offset = stop

/-- The readers do what the wary ones do, whose alarm is raised where another token is taken
than the one that is meant, and where rounds run out. What is the same for every alarm
raises none. -/
structure RaisesNoAlarm (alarm : SyntaxError.Cause) (stream : TokenStream) : Prop where
  statement : statement.runOn stream = (Wary.statement alarm).runOn stream
  expression : expression.runOn stream = (Wary.expression alarm).runOn stream
  sum : sum.runOn stream = (Wary.sum alarm).runOn stream
  product : product.runOn stream = (Wary.product alarm).runOn stream
  operand : operand.runOn stream = (Wary.operand alarm).runOn stream
  program : program.runOn stream = (Wary.program alarm).runOn stream

theorem raisesNoAlarm_of_open (alarm : SyntaxError.Cause) {stream : TokenStream}
    (hs : stream.Open) : RaisesNoAlarm alarm stream := by
  have same {α : Type} {trusting wary : Parsing α}
      (h : Alike Anywhere stream.ahead.length trusting wary) :=
    h.same hs (Nat.le_refl _) trivial
  exact ⟨same alike_statement, same alike_expression, same alike_sum, same alike_product,
    same alike_operand, same alike_program⟩

/-- At every position the readers of trees make progress and take no end of file; every
token that they take unseen is the one that is meant, and their rounds are enough. A
cursor never goes back. -/
theorem readers_make_progress {tokens : List Token} (ends : EndsList tokens) :
    ∃ stream, TokenStream.ofTokens tokens = .ok stream ∧
      (∀ p < tokens.length, (∃ stop, Token.FirstEnd tokens p stop ∧
        Advances (stream.seek p) stop) ∧ ∀ alarm, RaisesNoAlarm alarm (stream.seek p)) ∧
      ∀ p steps, ((CursorStep.trail (stream.seek p) steps).map
        TokenStream.offset).Pairwise (· ≤ ·) := by
  obtain ⟨stream, hstream, rfl, hs⟩ := TokenStream.exists_tokens ends
  refine ⟨stream, hstream, fun p hp => ?_, fun p steps =>
    (CursorStep.pairwise_offset_trail hs ends steps p).1⟩
  have hopen := TokenStream.open_seek hs ends hp
  obtain ⟨stop, hstop⟩ := Token.exists_firstEnd ends hp
  refine ⟨⟨stop, hstop, ?_, fun h => ?_, fun hrun => ?_⟩, fun alarm =>
    raisesNoAlarm_of_open alarm hopen⟩
  · exact progresses_of_passing passing_statement (takes_of_sound sound_statement) hopen hstop
  · exact progresses_of_passing h.passing h.takes hopen hstop
  · exact offset_of_program hs hstop hrun

/-- Behind the end of the program the list goes on to a second end of file. -/
theorem readers_make_progress_sample : EndsList Program.sampleTokens ∧
    21 < Program.sampleTokens.length ∧
    ∃ stream, TokenStream.ofTokens Program.sampleTokens = .ok stream ∧
      ∃ stop, Token.FirstEnd Program.sampleTokens 21 stop ∧ Advances (stream.seek 21) stop := by
  have ends : EndsList Program.sampleTokens := ⟨_, rfl, rfl⟩
  have hp : 21 < Program.sampleTokens.length := by decide
  obtain ⟨stream, hstream, hreaders, -⟩ := readers_make_progress ends
  exact ⟨ends, hp, stream, hstream, (hreaders 21 hp).1⟩

end Parsing

end Rech
