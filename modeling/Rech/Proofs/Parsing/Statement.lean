import Rech.Parsing.Statement
import Rech.Proofs.Grammar.Statement
import Rech.Proofs.Parsing.Expression

/-!
# Statements are read as the grammar has them

As with expressions, every reader is sound and complete for its phrase if the
readers it is made of are. Readers that take their first token unseen are sound
where that token is of the kind that led to them. A statement is complete
before every token but `else`, which would go on with a choice.
-/

namespace Rech.Parsing

def SoundAt (kind : Token.Kind) (parsing : Parsing α) (phrase : List Token → α → Prop) : Prop :=
  ∀ ⦃stream after value⦄, stream.Ended → (stream.peek 0).kind = kind →
    parsing.runOn stream = (.ok value, after) → ∃ w, stream.Passes w after ∧ phrase w value

-- ---------------------------------------------------------------------------
-- Soundness
-- ---------------------------------------------------------------------------

theorem sound_items {closing : Token.Kind → Bool} {item : Parsing Stmt}
    (hi : Sound item (Stmt.Derives Token.line)) (rounds : Nat) :
    Sound (items closing item rounds) (Stmt.DerivesAll Token.line) := by
  induction rounds with
  | zero =>
    intro stream after body hs h
    simp only [items, runOn_pure_ok] at h
    obtain ⟨rfl, rfl⟩ := h
    exact ⟨[], .refl _, .nil⟩
  | succ rounds ih =>
    intro stream after body hs h
    simp only [items, runOn_bind_ok, runOn_peek_ok] at h
    obtain ⟨token, _, ⟨rfl, rfl⟩, h⟩ := h
    split at h
    next =>
      simp only [runOn_pure_ok] at h
      obtain ⟨rfl, rfl⟩ := h
      exact ⟨[], .refl _, .nil⟩
    next =>
      simp only [runOn_bind_ok, runOn_pure_ok] at h
      obtain ⟨s, middle, hone, others, _, hrest, rfl, rfl⟩ := h
      obtain ⟨v, first, ds⟩ := hi hs hone
      obtain ⟨w, second, dr⟩ := ih (first.ended hs) hrest
      exact ⟨v ++ w, first.trans second, .cons ds dr⟩

theorem sound_block {statement : Parsing Stmt} (hb : Sound statement (Stmt.Derives Token.line)) :
    SoundAt .leftBrace (block statement) (Block.Derives Token.line) := by
  intro stream after b hs kind h
  simp only [block, runOn_bind_ok, runOn_take_ok, runOn_remaining_ok, runOn_eat_ok,
    runOn_pure_ok] at h
  obtain ⟨_, _, ⟨rfl, rfl⟩, _, _, ⟨rfl, rfl⟩, body, middle, hbody, closing, _, ⟨hc, rfl, rfl⟩,
    rfl, rfl⟩ := h
  have first := TokenStream.passes_advance hs (by simp [kind])
  obtain ⟨w, second, dw⟩ := sound_items hb _ (first.ended hs) hbody
  have third := TokenStream.passes_advance (second.ended (first.ended hs)) (by simp [hc])
  exact ⟨_, first.trans (second.trans third), .mk kind dw hc⟩

theorem sound_otherwise {choice : Parsing Choice} {block : Parsing Block}
    (hc : SoundAt .ifWord choice (Choice.Derives Token.line))
    (hb : SoundAt .leftBrace block (Block.Derives Token.line)) :
    Sound (otherwise choice block) (Otherwise.Derives Token.line) := by
  intro stream after o hs h
  simp only [otherwise, runOn_bind_ok, runOn_peek_ok] at h
  obtain ⟨word, _, ⟨rfl, rfl⟩, h⟩ := h
  split at h
  next kind =>
    simp only [runOn_bind_ok, runOn_take_ok, runOn_peek_ok] at h
    obtain ⟨_, _, ⟨-, rfl⟩, next, _, ⟨rfl, rfl⟩, h⟩ := h
    have first := TokenStream.passes_advance hs (by simp [kind])
    split at h
    case h_1 hk =>
      simp only [runOn_bind_ok, runOn_pure_ok] at h
      obtain ⟨c, _, hrun, rfl, rfl⟩ := h
      obtain ⟨w, second, dc⟩ := hc (first.ended hs) hk hrun
      exact ⟨_, first.trans second, .choice kind dc⟩
    case h_2 hk =>
      simp only [runOn_bind_ok, runOn_pure_ok] at h
      obtain ⟨b, _, hrun, rfl, rfl⟩ := h
      obtain ⟨w, second, db⟩ := hb (first.ended hs) hk hrun
      exact ⟨_, first.trans second, .block kind db⟩
    case h_3 => simp at h
  next =>
    simp only [runOn_pure_ok] at h
    obtain ⟨rfl, rfl⟩ := h
    exact ⟨[], .refl _, .nothing⟩

theorem sound_choice {statement : Parsing Stmt} (hb : Sound statement (Stmt.Derives Token.line))
    (bound : Nat) : SoundAt .ifWord (choice statement bound) (Choice.Derives Token.line) := by
  induction bound with
  | zero =>
    intro stream after c hs kind h
    simp [choice] at h
  | succ bound ih =>
    intro stream after c hs kind h
    simp only [choice, runOn_bind_ok, runOn_take_ok, runOn_expect_ok] at h
    obtain ⟨_, _, ⟨rfl, rfl⟩, _, _, ⟨left, rfl⟩, e, middle, hcond, _, _, ⟨hl, rfl⟩, h⟩ := h
    have first := TokenStream.passes_advance hs (by simp [kind])
    obtain ⟨w, closing, second, de, right⟩ :=
      sound_parenthesized sound_expression (first.ended hs) left hcond
    have hm := second.ended (first.ended hs)
    split at h
    case h_1 => simp at h
    case h_2 condition hcompared =>
      simp only [runOn_bind_ok, runOn_pure_ok] at h
      obtain ⟨b, rear, hbody, o, _, hother, rfl, rfl⟩ := h
      obtain ⟨v, third, db⟩ := sound_block hb hm hl hbody
      obtain ⟨u, fourth, dother⟩ := sound_otherwise ih (sound_block hb) (third.ended hm) hother
      have de := Expr.comparison?_eq_some.1 hcompared ▸ de
      have passed := first.trans (second.trans (third.trans fourth))
      refine ⟨_, ?_, .mk kind left de right db dother⟩
      simpa using passed

theorem passes_semicolon {stream middle after : TokenStream} (hm : middle.Ended)
    (first : stream.Passes w middle) (h : semicolon.runOn middle = (.ok u, after)) :
    ∃ closing, stream.Passes (w ++ [closing]) after ∧ closing.kind = .semicolon := by
  obtain ⟨hk, rfl⟩ := runOn_semicolon_ok.1 h
  exact ⟨middle.peek 0, first.trans (TokenStream.passes_advance hm (by simp [hk])), hk⟩

theorem sound_printStatement : SoundAt .printWord printStatement (Stmt.Derives Token.line) := by
  intro stream after s hs kind h
  simp only [printStatement, runOn_bind_ok, runOn_take_ok, runOn_pure_ok] at h
  obtain ⟨_, _, ⟨rfl, rfl⟩, e, middle, he, _, _, hend, rfl, rfl⟩ := h
  have first := TokenStream.passes_advance hs (by simp [kind])
  obtain ⟨w, second, de⟩ := sound_expression (first.ended hs) he
  obtain ⟨closing, passed, hc⟩ := passes_semicolon (second.ended (first.ended hs)) second hend
  exact ⟨_, first.trans passed, .print kind de hc⟩

theorem sound_returnStatement : SoundAt .returnWord returnStatement (Stmt.Derives Token.line) := by
  intro stream after s hs kind h
  simp only [returnStatement, expression?, runOn_bind_ok, runOn_take_ok, runOn_peek_ok,
    runOn_pure_ok] at h
  obtain ⟨_, _, ⟨rfl, rfl⟩, value, middle, ⟨_, _, ⟨rfl, rfl⟩, hv⟩, _, _, hend, rfl, rfl⟩ := h
  have first := TokenStream.passes_advance hs (by simp [kind])
  split at hv
  next =>
    simp only [runOn_pure_ok] at hv
    obtain ⟨rfl, rfl⟩ := hv
    obtain ⟨closing, passed, hc⟩ := passes_semicolon (first.ended hs) first hend
    exact ⟨_, passed, .returnNothing kind hc⟩
  next =>
    simp only [runOn_bind_ok, runOn_pure_ok] at hv
    obtain ⟨e, _, he, rfl, rfl⟩ := hv
    obtain ⟨w, second, de⟩ := sound_expression (first.ended hs) he
    obtain ⟨closing, passed, hc⟩ := passes_semicolon (second.ended (first.ended hs)) second hend
    exact ⟨_, first.trans passed, .returnValue kind de hc⟩

/-- The sign of an assignment is taken unseen. -/
theorem sound_assignment (hs : stream.Ended) (sign : (stream.peek 1).kind = .assign)
    (h : assignment.runOn stream = (.ok a, after)) :
    ∃ w, stream.Passes w after ∧ Assignment.Derives Token.line w a := by
  simp only [assignment, identifier, runOn_bind_ok, runOn_expect_ok, runOn_take_ok,
    runOn_pure_ok] at h
  obtain ⟨_, _, ⟨kind, rfl⟩, _, _, ⟨_, _, ⟨rfl, rfl⟩, rfl, rfl⟩, _, _, ⟨rfl, rfl⟩, e, _, he, rfl,
    rfl⟩ := h
  have first := TokenStream.passes_advance hs (by simp [kind])
  have hsign : (stream.advance.peek 0).kind = .assign := stream.peek_zero_advance ▸ sign
  have second := TokenStream.passes_advance (first.ended hs) (by simp [hsign])
  obtain ⟨w, third, de⟩ := sound_expression (second.ended (first.ended hs)) he
  exact ⟨_, first.trans (second.trans third), .mk kind hsign de⟩

theorem sound_declaration : SoundAt .letWord (do return .declaration (← declaration))
    (Stmt.Derives Token.line) := by
  intro stream after s hs kind h
  simp only [declaration, runOn_bind_ok, runOn_take_ok, runOn_peek_ok, runOn_pure_ok] at h
  obtain ⟨d, _, ⟨_, _, ⟨rfl, rfl⟩, _, _, ⟨rfl, rfl⟩, _, _, ⟨rfl, rfl⟩, h⟩, rfl, rfl⟩ := h
  have first := TokenStream.passes_advance hs (by simp [kind])
  split at h
  next hk =>
    simp only [Bool.and_eq_true, decide_eq_true_eq] at hk
    simp only [runOn_bind_ok, runOn_pure_ok] at h
    obtain ⟨a, middle, ha, _, _, hend, rfl, rfl⟩ := h
    obtain ⟨w, second, da⟩ := sound_assignment (first.ended hs) hk.2 ha
    obtain ⟨closing, passed, hc⟩ := passes_semicolon (second.ended (first.ended hs)) second hend
    exact ⟨_, first.trans passed, .declaration kind da hc⟩
  next => simp at h

theorem sound_simpleStatement : Sound simpleStatement (Stmt.Derives Token.line) := by
  intro stream after s hs h
  simp only [simpleStatement, assignmentOrExpression, runOn_bind_ok, runOn_peek_ok,
    runOn_pure_ok] at h
  obtain ⟨_, middle, ⟨_, _, ⟨rfl, rfl⟩, h⟩, _, _, hend, rfl, rfl⟩ := h
  split at h
  next sign =>
    simp only [runOn_bind_ok, runOn_pure_ok] at h
    obtain ⟨a, _, ha, rfl, rfl⟩ := h
    obtain ⟨w, first, da⟩ := sound_assignment hs sign ha
    obtain ⟨closing, passed, hc⟩ := passes_semicolon (first.ended hs) first hend
    exact ⟨_, passed, .assignment da hc⟩
  next =>
    simp only [runOn_bind_ok, runOn_pure_ok] at h
    obtain ⟨e, _, he, rfl, rfl⟩ := h
    obtain ⟨w, first, de⟩ := sound_expression hs he
    obtain ⟨closing, passed, hc⟩ := passes_semicolon (first.ended hs) first hend
    exact ⟨_, passed, .expression de hc⟩

theorem sound_statementWithin (bound : Nat) :
    Sound (statementWithin bound) (Stmt.Derives Token.line) := by
  induction bound with
  | zero => exact sound_unexpected
  | succ bound ih =>
    intro stream after s hs h
    simp only [statementWithin, runOn_bind_ok, runOn_peek_ok] at h
    obtain ⟨_, _, ⟨rfl, rfl⟩, h⟩ := h
    split at h
    case h_1 kind =>
      simp only [runOn_bind_ok, runOn_pure_ok] at h
      obtain ⟨b, _, hb, rfl, rfl⟩ := h
      obtain ⟨w, passed, db⟩ := sound_block ih hs kind hb
      exact ⟨w, passed, .block db⟩
    case h_2 kind =>
      simp only [runOn_bind_ok, runOn_pure_ok] at h
      obtain ⟨c, _, hc, rfl, rfl⟩ := h
      obtain ⟨w, passed, dc⟩ := sound_choice ih _ hs kind hc
      exact ⟨w, passed, .choice dc⟩
    case h_3 kind => exact sound_printStatement hs kind h
    case h_4 kind => exact sound_returnStatement hs kind h
    case h_5 kind => exact sound_declaration hs kind h
    case h_6 => exact sound_simpleStatement hs h

theorem sound_statement : Sound statement (Stmt.Derives Token.line) := by
  intro stream after s hs h
  simp only [statement, runOn_bind_ok, runOn_remaining_ok] at h
  obtain ⟨_, _, ⟨rfl, rfl⟩, h⟩ := h
  exact sound_statementWithin _ hs h

/-- Items end where they should, if there are rounds enough for every token left. -/
theorem ends_items {closing : Token.Kind → Bool} {item : Parsing Stmt}
    (hi : Sound item (Stmt.Derives Token.line)) (rounds : Nat) :
    ∀ {stream after : TokenStream} {body : List Stmt}, stream.Ended →
      stream.ahead.length ≤ rounds →
      (items closing item rounds).runOn stream = (.ok body, after) →
      (after.peek 0).kind = .endOfFile ∨ closing (after.peek 0).kind = true := by
  induction rounds with
  | zero =>
    intro stream after body hs hr h
    simp only [items, runOn_pure_ok] at h
    obtain ⟨-, rfl⟩ := h
    rw [TokenStream.peek_eq_last (List.length_eq_zero_iff.1 (Nat.le_zero.1 hr))]
    exact .inl hs
  | succ rounds ih =>
    intro stream after body hs hr h
    simp only [items, runOn_bind_ok, runOn_peek_ok] at h
    obtain ⟨_, _, ⟨rfl, rfl⟩, h⟩ := h
    split at h
    next closed =>
      simp only [runOn_pure_ok] at h
      obtain ⟨-, rfl⟩ := h
      simpa using closed
    next =>
      simp only [runOn_bind_ok, runOn_pure_ok] at h
      obtain ⟨s, middle, hone, others, _, hrest, -, rfl⟩ := h
      obtain ⟨v, first, ds⟩ := hi hs hone
      obtain ⟨token, rest, rfl, -⟩ := ds.exists_cons
      have hlen := first.length_ahead
      simp only [List.length_cons] at hlen
      exact ih (first.ended hs) (by omega) hrest

-- ---------------------------------------------------------------------------
-- Completeness
-- ---------------------------------------------------------------------------

theorem complete_items {closing : Token.Kind → Bool} {item : Parsing Stmt}
    (hc : ∀ kind, closing kind = true → kind = .rightBrace)
    (hi : Complete bound item (Stmt.Derives Token.line) Token.NoElse) :
    ∀ {body : List Stmt} {w : List Token} {stream after : TokenStream} {rounds : Nat},
      Stmt.DerivesAll Token.line w body → w.length ≤ bound → stream.Passes w after →
      ((after.peek 0).kind = .endOfFile ∨ closing (after.peek 0).kind = true) →
      w.length ≤ rounds → (items closing item rounds).runOn stream = (.ok body, after) := by
  intro body
  induction body with
  | nil =>
    intro w stream after rounds dw hb hp hf hr
    cases dw
    obtain rfl := TokenStream.Passes.nil_iff.1 hp
    cases rounds with
    | zero => rfl
    | succ rounds => simp [items, runOn_bind, hf]
  | cons s rest ih =>
    intro w stream after rounds dw hb hp hf hr
    cases dw with
    | @cons v _ w _ ds dr =>
      obtain ⟨middle, first, second⟩ := TokenStream.Passes.append_iff.1 hp
      obtain ⟨token, others, rfl, hk⟩ := ds.exists_cons
      simp only [List.length_append, List.length_cons] at hb hr
      -- A statement is followed by the next one or by what closes the list.
      have hmiddle : (middle.peek 0).NoElse := by
        cases dr with
        | nil =>
          obtain rfl := TokenStream.Passes.nil_iff.1 second
          intro hk
          rw [hk] at hf
          simpa using hc _ (hf.resolve_left (by decide))
        | cons dn =>
          obtain ⟨token, others, rfl, hk⟩ := dn.exists_cons
          rw [second.peek]
          exact Token.noElse_of_beginsStatement hk
      have hopen : ((stream.peek 0).kind = .endOfFile || closing (stream.peek 0).kind) = false := by
        rw [first.peek, Bool.or_eq_false_iff, decide_eq_false_iff_not, Bool.eq_false_iff]
        refine ⟨?_, fun hclosing => ?_⟩
        · intro hend
          simp [hend, Token.Kind.beginsStatement, Token.Kind.beginsExpression] at hk
        · simp [hc _ hclosing, Token.Kind.beginsStatement, Token.Kind.beginsExpression] at hk
      obtain ⟨rounds, rfl⟩ : ∃ n, rounds = n + 1 := ⟨rounds - 1, by omega⟩
      have hone := hi ds (by simp only [List.length_cons]; omega) first hmiddle
      have hothers := ih dr (by omega) second hf (by omega : w.length ≤ rounds)
      simp only [items, runOn_bind, runOn_peek, hopen, Bool.false_eq_true, if_false, hone, hothers,
        runOn_pure]

theorem complete_block {statement : Parsing Stmt}
    (hb : Complete bound statement (Stmt.Derives Token.line) Token.NoElse) :
    Complete (bound + 1) (block statement) (Block.Derives Token.line) (fun _ => True) := by
  intro stream after w b db hlen hp _
  cases db with
  | mk left dw right =>
    obtain ⟨-, hrest⟩ := TokenStream.Passes.cons_iff.1 hp
    obtain ⟨middle, first, second⟩ := TokenStream.Passes.append_iff.1 hrest
    simp only [List.length_cons, List.length_append, List.length_nil] at hlen
    have hrounds := first.length_ahead
    have hlast : ∀ kind : Token.Kind, decide (kind = .rightBrace) = true → kind = .rightBrace := by
      simp
    have hbody := complete_items hlast hb dw (by omega) first
      (.inr (by simp [second.peek, right])) (by omega : _ ≤ stream.advance.ahead.length)
    simp only [block, runOn_bind, runOn_take, runOn_remaining, hbody, eat, runOn_peek, second.peek,
      right, if_true, runOn_pure, second.advance_eq, hp.peek, Token.line]

theorem complete_otherwise {choice : Parsing Choice} {block : Parsing Block}
    (hc : Complete bound choice (Choice.Derives Token.line) Token.NoElse)
    (hb : Complete bound block (Block.Derives Token.line) (fun _ => True)) :
    Complete (bound + 1) (otherwise choice block) (Otherwise.Derives Token.line) Token.NoElse := by
  intro stream after w o dother hlen hp hf
  cases dother with
  | nothing =>
    obtain rfl := TokenStream.Passes.nil_iff.1 hp
    have hk : (after.peek 0).kind ≠ .elseWord := hf
    simp [otherwise, runOn_bind, hk]
  | block keyword chosen =>
    obtain ⟨-, hrest⟩ := TokenStream.Passes.cons_iff.1 hp
    obtain ⟨token, others, rfl, hk⟩ := chosen.exists_cons
    have hrun := hb chosen (by simpa using hlen) hrest trivial
    simp [otherwise, runOn_bind, runOn_map, hp.peek, keyword, hrest.peek, hk, hrun]
  | choice keyword chosen =>
    obtain ⟨-, hrest⟩ := TokenStream.Passes.cons_iff.1 hp
    obtain ⟨token, others, rfl, hk⟩ := chosen.exists_cons
    have hrun := hc chosen (by simpa using hlen) hrest hf
    simp [otherwise, runOn_bind, runOn_map, hp.peek, keyword, hrest.peek, hk, hrun]

theorem complete_choice {statement : Parsing Stmt}
    (hb : Complete bound statement (Stmt.Derives Token.line) Token.NoElse) (rounds : Nat)
    (hr : rounds ≤ bound + 1) :
    Complete rounds (choice statement rounds) (Choice.Derives Token.line) Token.NoElse := by
  induction rounds with
  | zero =>
    intro stream after w c dc hlen
    obtain ⟨token, rest, rfl, -⟩ := dc.exists_cons
    simp at hlen
  | succ rounds ih =>
    intro stream after w c dc hlen hp hf
    cases dc with
    | @mk w v b u o word opening closing condition keyword left compared right body otherwise =>
      have hword := hp.peek
      obtain ⟨-, hp⟩ := TokenStream.Passes.cons_iff.1 hp
      have hopening := hp.peek
      simp only [List.length_cons, List.length_append] at hlen
      rw [List.append_cons, ← List.cons_append] at hp
      obtain ⟨middle, first, second⟩ := TokenStream.Passes.append_iff.1 hp
      obtain ⟨rear, third, fourth⟩ := TokenStream.Passes.append_iff.1 second
      obtain ⟨token, others, rfl, hk⟩ := body.exists_cons
      simp only [List.length_cons] at hlen
      have hcond := complete_parenthesized complete_expression compared (Nat.le_refl _) right first
      have hbody := complete_block hb body (by simp only [List.length_cons]; omega) third trivial
      have hchosen : Complete rounds (block statement) (Block.Derives Token.line) fun _ => True :=
        fun _ _ _ _ db hl => complete_block hb db (by omega)
      have hother := complete_otherwise (ih (by omega)) hchosen otherwise (by omega) fourth hf
      have hcompared := Expr.comparison?_eq_some.2 (rfl : condition.toExpr = _)
      simp only [choice, runOn_bind, runOn_take, expect, runOn_peek, hword, hopening, left,
        if_true, runOn_pure, hcond, third.peek, hk, hcompared, hbody, hother, Token.line]

theorem complete_ended (de : Expr.Derives Token.line Level.all w e)
    (ended : closing.kind = .semicolon) (hp : stream.Passes (w ++ [closing]) after) :
    ∃ middle, expression.runOn stream = (.ok e, middle) ∧
      semicolon.runOn middle = (.ok (), after) := by
  obtain ⟨middle, first, second⟩ := TokenStream.Passes.append_iff.1 hp
  have hf : (middle.peek 0).Outside Level.all := by
    rw [second.peek]
    exact Token.outside_of_kind (by simp [ended]) (by simp [ended])
  refine ⟨middle, complete_expression de (Nat.le_refl _) first hf, ?_⟩
  exact runOn_semicolon_ok.2 ⟨by rw [second.peek, ended], second.advance_eq⟩

theorem complete_assignment (da : Assignment.Derives Token.line w a)
    (ended : closing.kind = .semicolon) (hp : stream.Passes (w ++ [closing]) after) :
    ∃ middle, assignment.runOn stream = (.ok a, middle) ∧
      semicolon.runOn middle = (.ok (), after) := by
  cases da with
  | mk target _ value =>
    have hname := hp.peek
    obtain ⟨-, hp⟩ := TokenStream.Passes.cons_iff.1 hp
    obtain ⟨-, hp⟩ := TokenStream.Passes.cons_iff.1 hp
    obtain ⟨middle, hv, hend⟩ := complete_ended value ended hp
    refine ⟨middle, ?_, hend⟩
    simp only [assignment, identifier, expect, runOn_bind, runOn_peek, runOn_take, runOn_pure,
      hname, target, if_true, hv, Token.line]

/-- The second token tells an assignment, so it is none in an expression. -/
theorem second_ne_assign {closing : Token} {stream after : TokenStream}
    (de : Expr.Derives Token.line Level.all w e) (ended : closing.kind = .semicolon)
    (hp : stream.Passes (w ++ [closing]) after) : (stream.peek 1).kind ≠ .assign := by
  have hin := de.inExpression
  obtain ⟨token, rest, rfl, -⟩ := de.exists_cons
  cases rest with
  | nil =>
    rw [hp.peek_one, ended]
    decide
  | cons next rest =>
    rw [hp.peek_one]
    intro hk
    simpa [hk, Token.Kind.inExpression] using hin next (by simp)

theorem statementWithin_of_beginsExpression
    (hk : (stream.peek 0).kind.beginsExpression = true) :
    (statementWithin (bound + 1)).runOn stream = simpleStatement.runOn stream := by
  simp only [statementWithin, runOn_bind, runOn_peek]
  split <;> simp_all [Token.Kind.beginsExpression]

theorem complete_statementWithin (bound : Nat) :
    Complete bound (statementWithin bound) (Stmt.Derives Token.line) Token.NoElse := by
  induction bound with
  | zero =>
    intro stream after w s ds hlen
    obtain ⟨token, rest, rfl, -⟩ := ds.exists_cons
    simp at hlen
  | succ bound ih =>
    intro stream after w s ds hlen hp hf
    cases ds with
    | block inner =>
      obtain ⟨token, rest, rfl, hk⟩ := inner.exists_cons
      have hrun := complete_block ih inner hlen hp trivial
      simp [statementWithin, runOn_bind, runOn_map, hp.peek, hk, hrun]
    | choice first =>
      obtain ⟨token, rest, rfl, hk⟩ := first.exists_cons
      have hrun := complete_choice ih (bound + 1) (Nat.le_refl _) first hlen hp hf
      simp [statementWithin, runOn_bind, runOn_map, hp.peek, hk, hrun]
    | print keyword value ended =>
      obtain ⟨-, hrest⟩ := TokenStream.Passes.cons_iff.1 hp
      obtain ⟨middle, hv, hend⟩ := complete_ended value ended hrest
      simp only [statementWithin, printStatement, runOn_bind, runOn_peek, runOn_take, runOn_pure,
        hp.peek, keyword, hv, hend, Token.line]
    | returnNothing keyword ended =>
      obtain ⟨-, hrest⟩ := TokenStream.Passes.cons_iff.1 hp
      have hend : semicolon.runOn stream.advance = (.ok (), after) :=
        runOn_semicolon_ok.2 ⟨by rw [hrest.peek, ended], hrest.advance_eq⟩
      simp only [statementWithin, returnStatement, expression?, runOn_bind, runOn_peek, runOn_take,
        runOn_pure, hp.peek, keyword, hrest.peek, ended, if_true, hend, Token.line]
    | returnValue keyword value ended =>
      obtain ⟨-, hrest⟩ := TokenStream.Passes.cons_iff.1 hp
      obtain ⟨middle, hv, hend⟩ := complete_ended value ended hrest
      obtain ⟨token, rest, rfl, hk⟩ := value.exists_cons
      have hne : token.kind ≠ .semicolon := by
        intro h
        simp [h, Token.Kind.beginsExpression] at hk
      simp only [statementWithin, returnStatement, expression?, runOn_bind, runOn_peek, runOn_take,
        runOn_pure, hp.peek, keyword, hrest.peek, hne, if_false, hv, hend, Token.line]
    | declaration keyword init ended =>
      obtain ⟨-, hrest⟩ := TokenStream.Passes.cons_iff.1 hp
      obtain ⟨middle, hv, hend⟩ := complete_assignment init ended hrest
      cases init with
      | mk target equals =>
        simp only [statementWithin, declaration, runOn_bind, runOn_peek, runOn_take, runOn_pure,
          hp.peek, keyword, hrest.peek, hrest.peek_one, target, equals, decide_true, Bool.and_true,
          if_true, hv, hend, Token.line]
    | assignment assigned ended =>
      obtain ⟨middle, hv, hend⟩ := complete_assignment assigned ended hp
      cases assigned with
      | mk target equals =>
        rw [statementWithin_of_beginsExpression (by rw [hp.peek, target]; rfl)]
        simp only [simpleStatement, assignmentOrExpression, runOn_bind, runOn_peek, hp.peek_one,
          equals, if_true, hv, runOn_pure, hend]
    | expression value ended =>
      obtain ⟨middle, hv, hend⟩ := complete_ended value ended hp
      have hsecond := second_ne_assign value ended hp
      obtain ⟨token, rest, rfl, hk⟩ := value.exists_cons
      rw [statementWithin_of_beginsExpression (by rw [hp.peek, hk])]
      simp only [simpleStatement, assignmentOrExpression, runOn_bind, runOn_peek, hsecond, if_false,
        hv, runOn_pure, hend]

theorem complete_statement :
    Complete bound statement (Stmt.Derives Token.line) Token.NoElse := by
  intro stream after w s ds _ hp hf
  have hlen : w.length ≤ stream.ahead.length := hp.length_ahead ▸ Nat.le_add_right ..
  rw [statement, runOn_bind, runOn_remaining]
  exact complete_statementWithin _ ds hlen hp hf

end Rech.Parsing
