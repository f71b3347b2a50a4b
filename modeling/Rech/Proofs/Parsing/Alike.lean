import Rech.Proofs.Parsing.Agreement
import Rech.Proofs.Parsing.Wary

/-!
# Readers take what they mean to take

In front of an end of file, the readers of trees answer and fail as the wary ones do,
whatever their alarm is. So it is never raised: every token that is taken unseen is the
one that is meant, and no bound on rounds is met. One lemma a reader, on streams no
longer than the bounds; those that start at a word or a bracket where it is in front.
-/

namespace Rech.Parsing

/-- A reader does what a wary one does, on streams that are not too long and fulfil a
condition. -/
structure Alike (pre : TokenStream → Prop) (m : Nat) (trusting wary : Parsing α) : Prop where
  passes : Passing pre 0 trusting
  same : ∀ ⦃stream⦄, stream.Open → stream.ahead.length ≤ m → pre stream →
    trusting.runOn stream = wary.runOn stream

namespace Alike

variable {pre pre' : TokenStream → Prop} {m m' : Nat} {trusting wary : Parsing α}

theorem mono (h : Alike pre m trusting wary) (hm : m' ≤ m)
    (hpre : ∀ ⦃stream⦄, pre' stream → pre stream) : Alike pre' m' trusting wary where
  passes _ hs hp := h.passes hs (hpre hp)
  same _ hs hl hp := h.same hs (Nat.le_trans hl hm) (hpre hp)

theorem shorter (h : Alike pre m trusting wary) (hm : m' ≤ m) : Alike pre m' trusting wary :=
  h.mono hm fun _ hp => hp

theorem within (h : Alike Anywhere m trusting wary) : Alike pre m trusting wary :=
  h.mono (Nat.le_refl m) fun _ _ => trivial

theorem seen (h : Alike (At kind) m trusting wary) (hk : token.kind = kind) :
    Alike (fun stream => pre stream ∧ stream.peek 0 = token) m trusting wary :=
  h.mono (Nat.le_refl m) fun _ hp => (congrArg Token.kind hp.2).trans hk

theorem expected (h : Alike (At kind) m trusting wary) :
    Alike (Behind pre (expect kind cause) u) m trusting wary :=
  h.mono (Nat.le_refl m) fun _ hp => hp.expect

theorem refl (h : Local pre m m trusting trusting) : Alike pre m trusting trusting where
  passes := h.passes
  same _ _ _ _ := rfl

protected theorem pure (a : α) : Alike pre m (pure a) (pure a) := .refl (.pure a)

/-- No open stream is empty. -/
theorem of_passing (passes : Passing pre 0 trusting) : Alike pre 0 trusting wary where
  passes := passes
  same stream hs hl := by
    have := hs.length_pos
    omega

protected theorem bind {f g : α → Parsing β} (d : Nat) (h : Alike pre m' trusting wary)
    (takes : Takes pre d trusting) (hm : m' ≤ m + d)
    (hf : ∀ a, Alike (Behind pre trusting a) m (f a) (g a)) :
    Alike pre m' (trusting >>= f) (wary >>= g) where
  passes := h.passes.bind fun a => (hf a).passes
  same stream hs hl hp := by
    rw [runOn_bind, runOn_bind, ← h.same hs hl hp]
    rcases hrun : trusting.runOn stream with ⟨_ | a, middle⟩
    · rfl
    obtain ⟨w, hw, -, passed⟩ := h.passes hs hp
    replace passed : stream.Passes w middle := by rwa [hrun] at passed
    have hd := takes hs hp hrun passed
    have hlength := passed.length_ahead
    exact (hf a).same (passed.open hw hs) (by omega) ⟨stream, hs, hp, hrun⟩

/-- Where it does not matter what the first of two readers takes. -/
protected theorem seq {f g : α → Parsing β} (h : Alike pre m trusting wary)
    (hf : ∀ a, Alike (Behind pre trusting a) m (f a) (g a)) :
    Alike pre m (trusting >>= f) (wary >>= g) :=
  .bind 0 h (fun _ _ _ _ _ _ _ _ => Nat.zero_le _) (Nat.le_refl m) hf

protected theorem peek {f g : Token → Parsing β} (distance : Nat)
    (h : ∀ token, Alike (fun stream => pre stream ∧ stream.peek distance = token) m (f token)
      (g token)) : Alike pre m (Parsing.peek distance >>= f) (Parsing.peek distance >>= g) where
  passes stream hs hp := by
    rw [runOn_peek_bind]
    exact (h _).passes hs ⟨hp, rfl⟩
  same stream hs hl hp := by
    rw [runOn_peek_bind, runOn_peek_bind]
    exact (h _).same hs hl ⟨hp, rfl⟩

protected theorem remaining {f g : Nat → Parsing β}
    (h : ∀ bound, Alike (fun stream => pre stream ∧ stream.ahead.length ≤ bound) (min bound m)
      (f bound) (g bound)) :
    Alike pre m (Parsing.remaining >>= f) (Parsing.remaining >>= g) where
  passes stream hs hp := by
    rw [runOn_remaining_bind]
    exact (h _).passes hs ⟨hp, Nat.le_refl _⟩
  same stream hs hl hp := by
    rw [runOn_remaining_bind, runOn_remaining_bind]
    exact (h _).same hs (Nat.le_min.2 ⟨Nat.le_refl _, hl⟩) ⟨hp, Nat.le_refl _⟩

protected theorem take {meant : Token → Bool} (h : ∀ ⦃stream⦄, pre stream →
    meant (stream.peek 0) = true ∧ (stream.peek 0).kind ≠ .endOfFile) :
    Alike pre m take (Wary.demand alarm meant) where
  passes := (passing_take fun _ hp => (h hp).2).mono (Nat.zero_le 1)
  same stream _ _ hp := by
    rw [Wary.demand, runOn_peek_bind, if_pos (h hp).1]

theorem take_at (hk : kind ≠ .endOfFile) :
    Alike (At kind) m take (Wary.demand alarm (·.kind = kind)) :=
  .take fun _ hp => ⟨decide_eq_true hp, hp ▸ hk⟩

end Alike

variable {pre : TokenStream → Prop} {m : Nat} {alarm : SyntaxError.Cause}

-- ---------------------------------------------------------------------------
-- Expressions
-- ---------------------------------------------------------------------------

section
variable {tier : Tier} {operand operand' : Parsing Expr} (hk : tier.kind ≠ .endOfFile)
  (ho : Alike Anywhere m operand operand')
include hk ho

theorem alike_chain (bound : Nat) (left : Expr) :
    Alike Anywhere (min bound m) (chain tier operand bound left)
      (Wary.chain alarm tier operand' bound left) := by
  induction bound generalizing left with
  | zero =>
    rw [Nat.zero_min]
    exact .of_passing (Alike.pure (m := 0) left).passes
  | succ bound ih =>
    refine .peek 0 fun token => ?_
    split
    next operator =>
      have htake : Alike (fun stream => Anywhere stream ∧ stream.peek 0 = token)
          (min (bound + 1) m) take (Wary.demand alarm tier.has) :=
        .take fun _ hp => hp.2 ▸ ⟨operator, (Tier.has_iff.1 operator).1 ▸ hk⟩
      exact .bind 1 htake takes_take (m := min bound m) (by omega) fun _ =>
        .seq (ho.within.shorter (Nat.min_le_right ..)) fun r => (ih _).within
    next => exact .pure left

theorem alike_tier : Alike pre m (Parsing.tier tier operand) (Wary.tier alarm tier operand') :=
  .seq ho.within fun first => .remaining fun bound => (alike_chain hk ho bound first).within

end

theorem alike_tiers {operand operand' : Parsing Expr} (ho : Alike Anywhere m operand operand') :
    Alike pre m (tiers operand) (Wary.tiers alarm operand') :=
  alike_tier (by decide) (alike_tier (by decide) (alike_tier (by decide) ho))

theorem alike_parenthesized {inner inner' : Parsing Expr} (hi : Alike Anywhere m inner inner') :
    Alike (At .leftParen) (m + 1) (parenthesized inner) (Wary.parenthesized alarm inner') :=
  .bind 1 (.take_at (by decide)) takes_take (Nat.le_refl _) fun _ =>
    .seq hi.within fun value => .refl (.seq (.eat (by decide) _) fun _ => .pure value)

theorem alike_identifier : Alike (At .identifier) m identifier (Wary.identifier alarm) :=
  .seq (.take_at (by decide)) fun _ => .pure _

theorem alike_operandWithin (bound : Nat) :
    Alike Anywhere bound (operandWithin bound) (Wary.operandWithin alarm bound) := by
  induction bound with
  | zero => exact .of_passing (Local.unexpected (m := 0) (n := 0)).passes
  | succ bound ih =>
    refine .peek 0 fun token => ?_
    dsimp only
    cases kind : token.kind with
    | math =>
      dsimp only
      split
      next text =>
        have hsign : Alike (fun stream => Anywhere stream ∧ stream.peek 0 = token) (bound + 1)
            take (Wary.demand alarm fun sign => sign.kind = .math && sign.text = "-") :=
          .take fun _ hp => hp.2 ▸ ⟨by simp [kind, text], by simp [kind]⟩
        exact .bind 1 hsign takes_take (Nat.le_refl _) fun _ => .seq ih.within fun e => .pure _
      next => exact .refl .unexpected
    | number | string | nullWord =>
      exact .seq ((Alike.take_at (by decide)).seen kind) fun _ => .pure _
    | leftParen => exact (alike_parenthesized (alike_tiers ih)).seen kind
    | identifier => exact .seq (alike_identifier.seen kind) fun _ => .pure _
    | _ => exact .refl .unexpected

theorem alike_operand : Alike pre m operand (Wary.operand alarm) :=
  .remaining fun bound => (alike_operandWithin bound).within.shorter (Nat.min_le_left ..)

theorem alike_product : Alike pre m product (Wary.product alarm) :=
  alike_tier (by decide) alike_operand

theorem alike_sum : Alike pre m sum (Wary.sum alarm) :=
  alike_tier (by decide) alike_product

theorem alike_expression : Alike pre m expression (Wary.expression alarm) :=
  alike_tier (by decide) alike_sum

theorem alike_expression? : Alike pre m expression? (Wary.expression? alarm) := by
  refine .peek 0 fun token => ?_
  split
  next => exact .pure none
  next => exact .seq alike_expression fun e => .pure (some e)

-- ---------------------------------------------------------------------------
-- Statements that a semicolon ends
-- ---------------------------------------------------------------------------

theorem alike_assignment : Alike BeforeSign m assignment (Wary.assignment alarm) := by
  refine .seq (.refl (.expect _ _)) fun _ => .seq (.mono alike_identifier (Nat.le_refl m)
    fun _ h => h.expect) fun target => .seq (.take ?_) fun _ => .seq alike_expression
      fun _ => .pure _
  rintro stream ⟨before, -, ⟨start, -, hsign, h⟩, h'⟩
  have sign : (start.peek 1).kind = .assign := hsign
  obtain ⟨-, rfl⟩ := runOn_expect_ok.1 h
  obtain ⟨_, _, hname, h'⟩ := runOn_bind_ok.1 h'
  obtain ⟨-, rfl⟩ := runOn_take_ok.1 hname
  obtain ⟨-, rfl⟩ := runOn_pure_ok.1 h'
  simp [TokenStream.peek_zero_advance, sign]

theorem alike_declaration : Alike (At .letWord) m declaration (Wary.declaration alarm) := by
  refine .seq (.take_at (by decide)) fun word => .peek 0 fun name => .peek 1 fun sign => ?_
  split
  next hk =>
    simp only [Bool.and_eq_true, decide_eq_true_eq] at hk
    refine .seq (.mono alike_assignment (Nat.le_refl m) fun _ hp => ?_) fun _ =>
      .refl (.seq .semicolon fun _ => .pure _)
    exact (congrArg Token.kind hp.2).trans hk.2
  next => exact .refl (.fail _)

theorem alike_assignmentOrExpression :
    Alike pre m assignmentOrExpression (Wary.assignmentOrExpression alarm) := by
  refine .peek 1 fun sign => ?_
  split
  next hk =>
    refine .seq (.mono alike_assignment (Nat.le_refl m) fun _ hp => ?_) fun _ => .pure _
    exact (congrArg Token.kind hp.2).trans hk
  next => exact .seq alike_expression fun _ => .pure _

theorem alike_printStatement :
    Alike (At .printWord) m printStatement (Wary.printStatement alarm) :=
  .seq (.take_at (by decide)) fun _ => .seq alike_expression fun _ =>
    .refl (.seq .semicolon fun _ => .pure _)

theorem alike_returnStatement :
    Alike (At .returnWord) m returnStatement (Wary.returnStatement alarm) :=
  .seq (.take_at (by decide)) fun _ => .seq alike_expression? fun _ =>
    .refl (.seq .semicolon fun _ => .pure _)

theorem alike_simpleStatement : Alike pre m simpleStatement (Wary.simpleStatement alarm) :=
  .seq alike_assignmentOrExpression fun _ => .refl (.seq .semicolon fun _ => .pure _)

-- ---------------------------------------------------------------------------
-- Blocks and choices
-- ---------------------------------------------------------------------------

section
variable {statement statement' : Parsing Stmt} (hs : Sound statement (Stmt.Derives Token.line))
  (h : Alike Anywhere m statement statement')
include hs h

theorem alike_items {closing : Token.Kind → Bool} (bound : Nat) :
    Alike Anywhere (min bound m) (items closing statement bound)
      (Wary.items alarm closing statement' bound) := by
  induction bound with
  | zero =>
    rw [Nat.zero_min]
    exact .of_passing (Alike.pure (m := 0) []).passes
  | succ bound ih =>
    refine .peek 0 fun token => ?_
    dsimp only
    split
    next => exact .pure []
    next =>
      exact .bind 1 (h.within.shorter (Nat.min_le_right ..)) (takes_of_sound hs)
        (m := min bound m) (by omega) fun s => .seq ih.within fun rest => .pure _

omit h in
theorem alike_closing {opening : Token} {body : List Stmt} {rounds : Nat} :
    Alike (Behind (fun stream => pre stream ∧ stream.ahead.length ≤ rounds)
        (items (· = .rightBrace) statement rounds) body) m
      (do
        let _ ← eat .rightBrace .unclosedBlock
        return Block.mk opening.place.line body)
      (do
        if (← peek 0).kind = .endOfFile then fail .unclosedBlock
        else
          let _ ← Wary.demand alarm (·.kind = .rightBrace)
          return Block.mk opening.place.line body) where
  passes := (Local.seq (m := 0) (n := 0) (.eat (by decide) _) fun _ => .pure _).passes
  same stream hstream _ hbehind := by
    obtain ⟨before, hbefore, ⟨-, hrounds⟩, hitems⟩ := hbehind
    have hend := ends_items hs rounds hbefore.ended hrounds hitems
    rcases hend with hend | hend
    · simp [eat, runOn_bind, runOn_map, hend]
    · have hbrace : (stream.peek 0).kind = .rightBrace := of_decide_eq_true hend
      simp [eat, Wary.demand, runOn_bind, runOn_map, hbrace]

theorem alike_block :
    Alike (At .leftBrace) (m + 1) (block statement) (Wary.block alarm statement') :=
  .bind 1 (.take_at (by decide)) takes_take (Nat.le_refl _) fun _ =>
    .remaining fun bound => .seq ((alike_items hs h bound).within) fun _ => alike_closing hs

omit hs h in
theorem alike_otherwise {choice choice' : Parsing Choice} {block block' : Parsing Block}
    (hc : Alike (At .ifWord) m choice choice') (hb : Alike (At .leftBrace) m block block') :
    Alike pre m (otherwise choice block) (Wary.otherwise alarm choice' block') := by
  refine .peek 0 fun token => ?_
  split
  next kind =>
    refine .seq ((Alike.take_at (by decide)).seen kind) fun _ => .peek 0 fun next => ?_
    cases hk : next.kind with
    | ifWord => exact .seq (hc.seen hk) fun _ => .pure _
    | leftBrace => exact .seq (hb.seen hk) fun _ => .pure _
    | _ => exact .refl (.fail _)
  next => exact .pure _

theorem alike_choice (bound : Nat) :
    Alike (At .ifWord) (min bound (m + 1)) (choice statement bound)
      (Wary.choice alarm statement' bound) := by
  induction bound with
  | zero =>
    rw [Nat.zero_min]
    exact .of_passing (Local.fail (m := 0) (n := 0) _).passes
  | succ bound ih =>
    have hblock : Alike (At .leftBrace) (m + 1) (block statement)
        (Wary.block alarm statement') :=
      alike_block hs h
    have hcondition : Alike (At .leftParen) (min bound m + 1) (parenthesized expression)
        (Wary.parenthesized alarm (Wary.expression alarm)) :=
      alike_parenthesized alike_expression
    refine .bind 1 (.take_at (by decide)) takes_take (m := min bound m) (by omega) fun word => ?_
    refine .seq (.refl (.expect _ _)) fun _ => ?_
    refine .seq (hcondition.expected.shorter (Nat.le_succ _)) fun condition => ?_
    refine .seq (.refl (.expect _ _)) fun _ => ?_
    cases condition.comparison? with
    | none => exact .refl (.throw _)
    | some comparison =>
      refine .seq (hblock.expected.shorter (by omega)) fun body => ?_
      refine .seq (alike_otherwise ?_ ?_) fun _ => .pure _
      · exact ih.shorter (by omega)
      · exact hblock.shorter (by omega)

end

-- ---------------------------------------------------------------------------
-- Statements and programs
-- ---------------------------------------------------------------------------

theorem alike_statementWithin (bound : Nat) :
    Alike Anywhere bound (statementWithin bound) (Wary.statementWithin alarm bound) := by
  induction bound with
  | zero => exact .of_passing (Local.unexpected (m := 0) (n := 0)).passes
  | succ bound ih =>
    have hs := sound_statementWithin bound
    refine .peek 0 fun token => ?_
    cases kind : token.kind with
    | leftBrace => exact .seq ((alike_block hs ih).seen kind) fun _ => .pure _
    | ifWord =>
      have hchoice : Alike (At .ifWord) (bound + 1) (choice (statementWithin bound) (bound + 1))
          (Wary.choice alarm (Wary.statementWithin alarm bound) (bound + 1)) :=
        (alike_choice hs ih (bound + 1)).shorter (Nat.le_of_eq (Nat.min_self _).symm)
      exact .seq (hchoice.seen kind) fun _ => .pure _
    | printWord => exact alike_printStatement.seen kind
    | returnWord => exact alike_returnStatement.seen kind
    | letWord => exact .seq (alike_declaration.seen kind) fun _ => .pure _
    | _ => exact alike_simpleStatement

theorem alike_statement : Alike pre m statement (Wary.statement alarm) :=
  .remaining fun bound => (alike_statementWithin bound).within.shorter (Nat.min_le_left ..)

theorem alike_program : Alike pre m program (Wary.program alarm) :=
  .remaining fun bound =>
    .seq (alike_items sound_statement alike_statement bound).within fun _ => .pure _

end Rech.Parsing
