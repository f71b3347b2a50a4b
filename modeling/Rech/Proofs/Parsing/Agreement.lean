import Rech.Proofs.Parsing.Completion
import Rech.Proofs.Parsing.Locality

/-!
# The readers of programs see no further than one token ahead

One lemma a reader. Those that start at a word or a bracket are compared where it is
in front. What counts its rounds is compared on streams no longer than the bounds,
as it has other bounds on another stream.
-/

namespace Rech

open Token (NoEnd)

namespace Parsing

variable {stream other after : TokenStream} {pre : TokenStream → Prop} {m n : Nat}
  {error : SyntaxError}

-- ---------------------------------------------------------------------------
-- Expressions
-- ---------------------------------------------------------------------------

theorem local_chain {tier : Tier} {operand operand' : Parsing Expr} (hk : tier.kind ≠ .endOfFile)
    (ho : Local Anywhere m n operand operand') (bound bound' : Nat) (left : Expr) :
    Local Anywhere (min bound m) (min bound' n) (chain tier operand bound left)
      (chain tier operand' bound' left) := by
  refine Local.of_bounds (chain tier operand) (chain tier operand') (min · m) (min · n)
    (Nat.zero_min m) (Nat.zero_min n) (fun left => (Local.pure (m := 0) (n := 0) left).passes)
    ?_ bound bound' left
  intro bound bound' ih left
  refine .peek fun token => ?_
  split
  next operator =>
    exact .bind 1 ((Local.take_at hk).seen (Tier.has_iff.1 operator).1) takes_take (by omega)
      (by omega) fun _ => .seq (ho.within.shorter (Nat.min_le_right ..) (Nat.min_le_right ..))
        fun r => (ih _).within
  next => exact .pure left

theorem local_tier {tier : Tier} {operand operand' : Parsing Expr} (hk : tier.kind ≠ .endOfFile)
    (ho : Local Anywhere m n operand operand') :
    Local pre m n (Parsing.tier tier operand) (Parsing.tier tier operand') :=
  .seq ho.within fun first =>
    .remaining fun bound bound' => (local_chain hk ho bound bound' first).within

theorem local_tiers {operand operand' : Parsing Expr} (ho : Local Anywhere m n operand operand') :
    Local pre m n (tiers operand) (tiers operand') :=
  local_tier (by decide) (local_tier (by decide) (local_tier (by decide) ho))

theorem local_parenthesized {inner inner' : Parsing Expr} (hi : Local Anywhere m n inner inner') :
    Local (At .leftParen) (m + 1) (n + 1) (parenthesized inner) (parenthesized inner') :=
  .bind 1 (.take_at (by decide)) takes_take (Nat.le_refl _) (Nat.le_refl _) fun _ =>
    .seq hi.within fun value => .seq (.eat (by decide) _) fun _ => .pure value

theorem local_operandWithin (bound bound' : Nat) :
    Local Anywhere bound bound' (operandWithin bound) (operandWithin bound') := by
  refine Local.of_bounds (fun bound (_ : Unit) => operandWithin bound)
    (fun bound _ => operandWithin bound) id id rfl rfl
    (fun _ => (Local.unexpected (m := 0) (n := 0)).passes) ?_ bound bound' ()
  intro bound bound' ih _
  refine .peek fun token => ?_
  dsimp only
  split
  case h_1 kind =>
    split
    next =>
      exact .bind 1 ((Local.take_at (by decide)).seen kind) takes_take (Nat.le_refl _)
        (Nat.le_refl _) fun _ => .seq (ih ()).within fun e => .pure _
    next => exact .unexpected
  case h_2 kind | h_3 kind | h_4 kind =>
    exact .seq ((Local.take_at (by decide)).seen kind) fun _ => .pure _
  case h_5 kind => exact (local_parenthesized (local_tiers (ih ()))).seen kind
  case h_6 kind =>
    exact .seq (.seq ((Local.take_at (by decide)).seen kind) fun _ => .pure _) fun _ => .pure _
  case h_7 => exact .unexpected

theorem local_operand : Local pre m n operand operand :=
  .remaining fun bound bound' =>
    (local_operandWithin bound bound').within.shorter (Nat.min_le_left ..) (Nat.min_le_left ..)

theorem local_product : Local pre m n Parsing.product Parsing.product :=
  local_tier (by decide) local_operand

theorem local_sum : Local pre m n Parsing.sum Parsing.sum :=
  local_tier (by decide) local_product

theorem local_expression : Local pre m n expression expression :=
  local_tier (by decide) local_sum

theorem local_expression? : Local pre m n expression? expression? := by
  refine .peek fun token => ?_
  split
  next => exact .pure none
  next => exact .seq local_expression fun e => .pure (some e)

-- ---------------------------------------------------------------------------
-- How much is taken of an expression or an assignment
-- ---------------------------------------------------------------------------

theorem passing_tier {tier : Tier} {operand : Parsing Expr} {count : Nat}
    (hk : tier.kind ≠ .endOfFile) (ho : Local Anywhere 0 0 operand operand)
    (h : Passing pre count operand) : Passing pre count (Parsing.tier tier operand) :=
  h.bind fun first => (Local.remaining fun bound bound' =>
    (local_chain hk ho bound bound' first).within).passes

theorem passing_operand : Passing (At .identifier) 1 operand := by
  intro stream hs kind
  have hkind : (stream.peek 0).kind = .identifier := kind
  obtain ⟨bound, hbound⟩ := Nat.exists_eq_add_of_lt hs.length_pos
  have hrun : operand.runOn stream =
      (.ok (.identifier ⟨some (stream.peek 0).place.line, (stream.peek 0).text⟩),
        stream.advance) := by
    rw [operand, runOn_remaining_bind, hbound, Nat.zero_add, operandWithin, runOn_peek_bind]
    simp only [hkind, identifier, runOn_bind, runOn_take, runOn_pure]
  rw [hrun]
  exact ⟨[stream.peek 0], by simp [hkind], Nat.le_refl 1,
    TokenStream.passes_advance hs.ended (by simp [hkind])⟩

theorem passing_expression : Passing (At .identifier) 1 expression :=
  passing_tier (by decide) local_sum (passing_tier (by decide) local_product
    (passing_tier (by decide) local_operand passing_operand))

/-- Where an assignment goes on behind a token. -/
def BeforeSign (stream : TokenStream) : Prop := (stream.peek 1).kind = .assign

instance : DecidablePred BeforeSign := fun _ => inferInstanceAs (Decidable (_ = _))

def AtAssignment (stream : TokenStream) : Prop := At .identifier stream ∧ BeforeSign stream

instance : DecidablePred (At kind) := fun _ => inferInstanceAs (Decidable (_ = _))

instance : DecidablePred AtAssignment := fun _ => inferInstanceAs (Decidable (_ ∧ _))

theorem local_assignment : Local BeforeSign m n assignment assignment := by
  refine .seq (.expect _ _) fun _ => .seq (.seq (.take ?_) fun _ => .pure _) fun target =>
    .seq (.take ?_) fun _ => .seq local_expression fun _ => .pure _
  · intro stream h
    have kind : (stream.peek 0).kind = .identifier := h.expect
    simp [kind]
  · rintro stream ⟨before, -, ⟨start, -, hsign, h⟩, h'⟩
    have sign : (start.peek 1).kind = .assign := hsign
    obtain ⟨-, rfl⟩ := runOn_expect_ok.1 h
    obtain ⟨_, _, hname, h'⟩ := runOn_bind_ok.1 h'
    obtain ⟨-, rfl⟩ := runOn_take_ok.1 hname
    obtain ⟨-, rfl⟩ := runOn_pure_ok.1 h'
    rw [TokenStream.peek_zero_advance, sign]
    decide

theorem passing_assignment : Passing AtAssignment 2 assignment := by
  rintro stream hs ⟨hkind, hsign⟩
  have kind : (stream.peek 0).kind = .identifier := hkind
  have sign : (stream.advance.peek 0).kind = .assign := stream.peek_zero_advance ▸ hsign
  have first := TokenStream.passes_advance hs.ended (by simp [kind])
  have hs' := first.open (by simp [kind]) hs
  have second := TokenStream.passes_advance hs'.ended (by simp [sign])
  have hvalue : Local Anywhere 0 0 (do
      let value ← expression
      return (⟨some (stream.peek 0).place.line,
        ⟨some (stream.peek 0).place.line, (stream.peek 0).text⟩, value⟩ : Assignment)) _ :=
    .seq local_expression fun _ => .pure _
  obtain ⟨w, hw, -, passed⟩ := hvalue.passes (second.open (by simp [sign]) hs') trivial
  rw [runOn_assignment kind]
  refine ⟨_, ?_, ?_, first.trans (second.trans passed)⟩
  · simp [kind, sign, hw]
  · simp

theorem two_le_of_assignment_error (hs : stream.Open) (sign : BeforeSign stream)
    (h : assignment.runOn stream = (.error error, after)) (passed : stream.Passes w after) :
    2 ≤ w.length + error.cause.lookahead := by
  by_cases kind : (stream.peek 0).kind = .identifier
  · obtain ⟨v, -, hcount, passed'⟩ := passing_assignment hs ⟨kind, sign⟩
    rw [h] at passed'
    rw [passed.unique passed']
    omega
  · rw [assignment, runOn_bind, runOn_expect_error.2 ⟨kind, rfl, rfl⟩] at h
    obtain ⟨rfl, rfl⟩ := h
    exact Nat.le_add_left ..

-- ---------------------------------------------------------------------------
-- What the second token tells
-- ---------------------------------------------------------------------------

theorem beforeSign_iff {count : Nat} (agrees : stream.Agrees count other) (hcount : 1 < count)
    (hlength : 1 < stream.ahead.length) : BeforeSign other ↔ BeforeSign stream := by
  rw [BeforeSign, BeforeSign, agrees.peek hcount hlength]

theorem atAssignment_iff {count : Nat} (agrees : stream.Agrees count other) (hcount : 1 < count)
    (hs : stream.Open) (kind : (stream.peek 0).kind = .identifier) :
    AtAssignment other ↔ AtAssignment stream := by
  have first := TokenStream.passes_advance hs.ended (by simp [kind])
  have hlength := first.one_lt_length (by simp [kind]) hs (Nat.succ_pos _)
  rw [AtAssignment, AtAssignment, At, At, agrees.peek_zero (by omega) hs,
    beforeSign_iff agrees hcount hlength]

def simpleAssignment : Parsing Stmt := do
  return .assignment (← assignment)

def simpleExpression : Parsing Stmt := do
  return .expression (← expression)

theorem runOn_assignmentOrExpression (stream : TokenStream) :
    assignmentOrExpression.runOn stream =
      if BeforeSign stream then simpleAssignment.runOn stream
      else simpleExpression.runOn stream := by
  rw [assignmentOrExpression, runOn_peek_bind]
  exact apply_ite (fun parsing : Parsing Stmt => parsing.runOn stream) ..

theorem SpellsSimple.noEnd (h : SpellsSimple w s) : NoEnd w := by
  have hw := (h ⟨.semicolon, "", .start⟩ rfl).noEnd
  rw [Token.noEnd_append] at hw
  exact hw.1

theorem SpellsSimple.length_pos (h : SpellsSimple w s) : 0 < w.length := by
  rw [List.length_pos_iff]
  rintro rfl
  obtain ⟨token, rest, hsplit, hk⟩ := (h ⟨.semicolon, "", .start⟩ rfl).exists_cons
  obtain ⟨rfl, -⟩ := List.cons.inj hsplit
  cases hk

theorem identifier_of_simpleAssignment_ok (h : simpleAssignment.runOn stream = (.ok s, after)) :
    (stream.peek 0).kind = .identifier := by
  obtain ⟨_, _, hassignment, -⟩ := runOn_bind_ok.1 h
  obtain ⟨_, _, hname, -⟩ := runOn_bind_ok.1 hassignment
  exact (runOn_expect_ok.1 hname).1

theorem beforeSign_of_ok (hs : stream.Open)
    (h : assignmentOrExpression.runOn stream = (.ok s, after)) (passed : stream.Passes w after)
    (agrees : stream.Agrees (w.length + 1) other) : BeforeSign other ↔ BeforeSign stream := by
  obtain ⟨v, passed', hv⟩ := sound_assignmentOrExpression hs.ended h
  obtain rfl := passed.unique passed'
  have hpos := hv.length_pos
  exact beforeSign_iff agrees (by omega) (passed.one_lt_length hv.noEnd hs hpos)

theorem beforeSign_of_identifier (hs : stream.Open) (kind : (stream.peek 0).kind = .identifier)
    (h : expression.runOn stream = (.error error, after)) (passed : stream.Passes w after)
    (agrees : stream.Agrees (w.length + error.cause.lookahead) other) :
    BeforeSign other ↔ BeforeSign stream := by
  have hk := error.cause.one_le_lookahead
  obtain ⟨v, hv, hcount, passed'⟩ := passing_expression hs kind
  rw [h] at passed'
  obtain rfl := passed.unique passed'
  exact beforeSign_iff agrees (by omega) (passed.one_lt_length hv hs hcount)

theorem beforeSign_of_error (hs : stream.Open)
    (h : assignmentOrExpression.runOn stream = (.error error, after))
    (passed : stream.Passes w after)
    (agrees : stream.Agrees (w.length + error.cause.lookahead) other)
    (hok : assignmentOrExpression.runOn other = (.ok s, rear)) :
    BeforeSign other ↔ BeforeSign stream := by
  have hk := error.cause.one_le_lookahead
  rw [runOn_assignmentOrExpression] at h hok
  split at h
  next sign =>
    have hdeep := two_le_of_assignment_error hs sign (runOn_return_error.1 h) passed
    refine beforeSign_iff agrees hdeep (hs.one_lt_length ?_)
    have hsign : (stream.peek 1).kind = .assign := sign
    simp [hsign]
  next sign =>
    split at hok
    next =>
      have kind := identifier_of_simpleAssignment_ok hok
      rw [agrees.peek_zero (by omega) hs] at kind
      exact beforeSign_of_identifier hs kind (runOn_return_error.1 h) passed agrees
    next sign' => exact iff_of_false sign' sign

theorem local_assignmentOrExpression :
    Local pre m n assignmentOrExpression assignmentOrExpression := by
  have hassignment : Local BeforeSign m n simpleAssignment simpleAssignment :=
    .seq local_assignment fun _ => .pure _
  have hexpression : Local Anywhere m n simpleExpression simpleExpression :=
    .seq local_expression fun _ => .pure _
  exact .branch runOn_assignmentOrExpression
    (hassignment.mono (Nat.le_refl m) (Nat.le_refl n) fun _ hp => hp.2) hexpression.within
    (fun _ _ _ _ _ => beforeSign_of_ok) (fun _ _ _ _ _ _ _ => beforeSign_of_error)

def initialised (word : Token) : Parsing Declaration := do
  let init ← assignment
  semicolon
  return ⟨word.place.line, init.target, init⟩

def declarationBehind (word : Token) : Parsing Declaration := do
  if (← peek 0).kind = .identifier && (← peek 1).kind = .assign then initialised word
  else fail .badDeclaration

theorem runOn_declarationBehind (word : Token) (stream : TokenStream) :
    (declarationBehind word).runOn stream =
      if AtAssignment stream then (initialised word).runOn stream
      else (fail .badDeclaration : Parsing Declaration).runOn stream := by
  rw [declarationBehind, runOn_peek_bind, runOn_peek_bind]
  by_cases h : AtAssignment stream
  · rw [if_pos h, if_pos (by simpa [AtAssignment, At, BeforeSign] using h)]
  · rw [if_neg h, if_neg (by simpa [AtAssignment, At, BeforeSign] using h)]

theorem passing_initialised (word : Token) : Passing AtAssignment 2 (initialised word) :=
  passing_assignment.bind fun _ =>
    (Local.seq (m := 0) (n := 0) .semicolon fun _ => .pure _).passes

theorem atAssignment_of_begun {count : Nat} (hs : stream.Open) (begun : AtAssignment stream)
    (h : ((initialised word).runOn stream).2 = after) (passed : stream.Passes w after)
    (agrees : stream.Agrees (w.length + count) other) :
    AtAssignment other ↔ AtAssignment stream := by
  obtain ⟨v, -, hcount, passed'⟩ := passing_initialised word hs begun
  rw [h] at passed'
  obtain rfl := passed.unique passed'
  exact atAssignment_iff agrees (by omega) hs begun.1

theorem atAssignment_of_ok (hs : stream.Open)
    (h : (declarationBehind word).runOn stream = (.ok d, after)) (passed : stream.Passes w after)
    (agrees : stream.Agrees (w.length + 1) other) : AtAssignment other ↔ AtAssignment stream := by
  rw [runOn_declarationBehind] at h
  split at h
  next begun => exact atAssignment_of_begun hs begun (congrArg Prod.snd h) passed agrees
  next => simp at h

theorem atAssignment_of_error (hs : stream.Open)
    (h : (declarationBehind word).runOn stream = (.error error, after))
    (passed : stream.Passes w after)
    (agrees : stream.Agrees (w.length + error.cause.lookahead) other)
    (hok : (declarationBehind word).runOn other = (.ok d, rear)) :
    AtAssignment other ↔ AtAssignment stream := by
  rw [runOn_declarationBehind] at h hok
  split at h
  next begun => exact atAssignment_of_begun hs begun (congrArg Prod.snd h) passed agrees
  next =>
    obtain ⟨rfl, rfl⟩ := runOn_fail_error.1 h
    have hcount : 1 < w.length + SyntaxError.Cause.badDeclaration.lookahead := Nat.le_add_left ..
    split at hok
    next begun =>
      have kind : (stream.peek 0).kind = .identifier :=
        agrees.peek_zero (Nat.zero_lt_of_lt hcount) hs ▸ begun.1
      exact atAssignment_iff agrees hcount hs kind
    next => simp at hok

theorem local_declaration : Local (At .letWord) m n declaration declaration := by
  refine .seq (.take_at (by decide)) fun word => ?_
  have hinit : Local AtAssignment m n (initialised word) (initialised word) :=
    .seq (local_assignment.mono (Nat.le_refl m) (Nat.le_refl n) fun _ hp => hp.2)
      fun _ => .seq .semicolon fun _ => .pure _
  exact .branch (runOn_declarationBehind word)
    (hinit.mono (Nat.le_refl m) (Nat.le_refl n) fun _ hp => hp.2) (.fail _)
    (fun _ _ _ _ _ => atAssignment_of_ok) (fun _ _ _ _ _ _ _ => atAssignment_of_error)

-- ---------------------------------------------------------------------------
-- Statements that a semicolon ends
-- ---------------------------------------------------------------------------

theorem local_printStatement : Local (At .printWord) m n printStatement printStatement :=
  .seq (.take_at (by decide)) fun _ =>
    .seq local_expression fun _ => .seq .semicolon fun _ => .pure _

theorem local_returnStatement : Local (At .returnWord) m n returnStatement returnStatement :=
  .seq (.take_at (by decide)) fun _ =>
    .seq local_expression? fun _ => .seq .semicolon fun _ => .pure _

theorem local_simpleStatement : Local pre m n simpleStatement simpleStatement :=
  .seq local_assignmentOrExpression fun _ => .seq .semicolon fun _ => .pure _

-- ---------------------------------------------------------------------------
-- Blocks and choices
-- ---------------------------------------------------------------------------

theorem takes_of_spelled {parsing : Parsing α} {phrase : List Token → α → Prop}
    (h : Sound parsing phrase) (hpos : ∀ {w a}, phrase w a → 0 < w.length) :
    Takes pre 1 parsing := by
  intro stream after w a hs hp hrun passed
  obtain ⟨v, passed', hv⟩ := h hs.ended hrun
  rw [passed.unique passed']
  exact hpos hv

theorem takes_of_sound {item : Parsing Stmt} (h : Sound item (Stmt.Derives Token.line)) :
    Takes pre 1 item :=
  takes_of_spelled h fun ds => by
    obtain ⟨token, rest, rfl, -⟩ := ds.exists_cons
    exact Nat.succ_pos _

section
variable {statement statement' : Parsing Stmt} (hs : Sound statement (Stmt.Derives Token.line))
  (h : Local Anywhere m n statement statement')
include hs h

theorem local_items {closing : Token.Kind → Bool} (bound bound' : Nat) :
    Local Anywhere (min bound m) (min bound' n) (items closing statement bound)
      (items closing statement' bound') := by
  refine Local.of_bounds (fun bound (_ : Unit) => items closing statement bound)
    (fun bound _ => items closing statement' bound) (min · m) (min · n) (Nat.zero_min m)
    (Nat.zero_min n) (fun _ => (Local.pure (m := 0) (n := 0) []).passes) ?_ bound bound' ()
  intro bound bound' ih _
  refine .peek fun token => ?_
  dsimp only
  split
  next => exact .pure []
  next =>
    exact .bind 1 (h.within.shorter (Nat.min_le_right ..) (Nat.min_le_right ..))
      (takes_of_sound hs) (by omega) (by omega) fun s => .seq (ih ()).within fun rest => .pure _

theorem local_block :
    Local (At .leftBrace) (m + 1) (n + 1) (block statement) (block statement') :=
  .bind 1 (.take_at (by decide)) takes_take (Nat.le_refl _) (Nat.le_refl _) fun _ =>
    .remaining fun bound bound' => .seq (local_items hs h bound bound').within fun _ =>
      .seq (.eat (by decide) _) fun _ => .pure _

omit hs h in
theorem local_otherwise {choice choice' : Parsing Choice} {block block' : Parsing Block}
    (hc : Local (At .ifWord) m n choice choice') (hb : Local (At .leftBrace) m n block block') :
    Local pre m n (otherwise choice block) (otherwise choice' block') := by
  refine .peek fun token => ?_
  split
  next kind =>
    refine .seq ((Local.take_at (by decide)).seen kind) fun _ => .peek fun next => ?_
    split
    case h_1 hk => exact .seq (hc.seen hk) fun _ => .pure _
    case h_2 hk => exact .seq (hb.seen hk) fun _ => .pure _
    case h_3 => exact .fail _
  next => exact .pure _

theorem local_choice (bound bound' : Nat) :
    Local (At .ifWord) (min bound (m + 1)) (min bound' (n + 1)) (choice statement bound)
      (choice statement' bound') := by
  refine Local.of_bounds (fun bound (_ : Unit) => choice statement bound)
    (fun bound _ => choice statement' bound) (min · (m + 1)) (min · (n + 1)) (Nat.zero_min _)
    (Nat.zero_min _) (fun _ => (Local.fail (m := 0) (n := 0) _).passes) ?_ bound bound' ()
  intro bound bound' ih _
  have hblock := local_block hs h
  have hcondition : Local (At .leftParen) (min bound m + 1) (min bound' n + 1)
      (parenthesized expression) (parenthesized expression) :=
    local_parenthesized local_expression
  refine .bind 1 (.take_at (by decide)) takes_take (m := min bound m) (n := min bound' n)
    (by omega) (by omega) fun word => ?_
  refine .seq (.expect _ _) fun _ => ?_
  refine .seq (hcondition.expected.shorter (Nat.le_succ _) (Nat.le_succ _)) fun condition => ?_
  refine .seq (.expect _ _) fun _ => ?_
  split
  case h_1 => exact .throw _
  case h_2 =>
    refine .seq (hblock.expected.shorter (by omega) (by omega)) fun body => ?_
    refine .seq (local_otherwise ?_ ?_) fun _ => .pure _
    · exact (ih ()).shorter (by omega) (by omega)
    · exact hblock.shorter (by omega) (by omega)

end

theorem local_statementWithin (bound bound' : Nat) :
    Local Anywhere bound bound' (statementWithin bound) (statementWithin bound') := by
  refine Local.of_bounds (fun bound (_ : Unit) => statementWithin bound)
    (fun bound _ => statementWithin bound) id id rfl rfl
    (fun _ => (Local.unexpected (m := 0) (n := 0)).passes) ?_ bound bound' ()
  intro bound bound' ih _
  have hs := sound_statementWithin bound
  refine .peek fun token => ?_
  split
  case h_1 kind => exact .seq ((local_block hs (ih ())).seen kind) fun _ => .pure _
  case h_2 kind =>
    have hchoice := local_choice hs (ih ()) (bound + 1) (bound' + 1)
    exact .seq ((hchoice.shorter (Nat.le_of_eq (Nat.min_self _).symm)
      (Nat.le_of_eq (Nat.min_self _).symm)).seen kind) fun _ => .pure _
  case h_3 kind => exact local_printStatement.seen kind
  case h_4 kind => exact local_returnStatement.seen kind
  case h_5 kind => exact .seq (local_declaration.seen kind) fun _ => .pure _
  case h_6 => exact local_simpleStatement

theorem local_statement : Local pre m n statement statement :=
  .remaining fun bound bound' =>
    (local_statementWithin bound bound').within.shorter (Nat.min_le_left ..) (Nat.min_le_left ..)

theorem local_program : Local pre m n program program :=
  .remaining fun bound bound' =>
    .seq (local_items sound_statement local_statement bound bound').within fun _ => .pure _

end Parsing

end Rech
