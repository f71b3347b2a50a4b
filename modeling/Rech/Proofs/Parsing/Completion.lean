import Rech.Proofs.Parsing.Halting

/-!
# What was read of a program can be completed

A statement that failed to be read was begun, in the grammar with any condition. So
were the statements of a block and of a program, with all of those that were read
before it.
-/

namespace Rech.Parsing

variable {stream after : TokenStream} {error : SyntaxError}

-- ---------------------------------------------------------------------------
-- Statements that a semicolon ends
-- ---------------------------------------------------------------------------

inductive Closed (phrase : List Token → Prop) : List Token → Prop
  | mk {closing : Token} (inner : phrase w) (ended : closing.kind = .semicolon) :
      Closed phrase (w ++ [closing])

theorem halts_closed {parsing : Parsing α} {f : α → β} {spelled : List Token → α → Prop}
    (sound : ∀ {after a}, parsing.runOn stream = (.ok a, after) →
      ∃ w, stream.Passes w after ∧ spelled w a)
    (fails : ∀ {after error}, parsing.runOn stream = (.error error, after) →
      Halts (fun w => ∃ a, spelled w a) stream after error)
    (h : (do let a ← parsing; semicolon; return f a : Parsing β).runOn stream =
      (.error error, after)) :
    Halts (Closed fun w => ∃ a, spelled w a) stream after error := by
  let closing : Token := ⟨.semicolon, "", .start⟩
  rcases runOn_bind_error.1 h with h | ⟨a, _, ha, h⟩
  · exact (fails h).mono fun w hw => ⟨[closing], .mk hw rfl⟩
  · obtain ⟨w, passed, hw⟩ := sound ha
    obtain ⟨-, rfl, rfl⟩ := runOn_semicolon_error.1 (runOn_return_error.1 h)
    exact halts_front passed (by decide) ⟨[closing], .mk ⟨a, hw⟩ rfl⟩

theorem halts_printStatement (hs : stream.Ended) (kind : (stream.peek 0).kind = .printWord)
    (h : printStatement.runOn stream = (.error error, after)) :
    Halts (Stmt.Loose Token.line) stream after error := by
  have first := TokenStream.passes_advance hs (by simp [kind])
  have hended := first.ended hs
  rw [printStatement, runOn_take_bind] at h
  refine (halts_closed (sound_expression hended) (completable_expression hended) h).behind first
    fun w hw => ?_
  obtain ⟨⟨e, de⟩, ended⟩ := hw
  exact ⟨[], by simpa using .strict (.print kind de ended)⟩

/-- The value of a return statement may be left out. -/
def SpellsValue (w : List Token) : Option Expr → Prop
  | none => w = []
  | some e => Expr.Derives Token.line Level.all w e

theorem sound_expression? : Sound expression? SpellsValue := by
  intro stream after value hs h
  rw [expression?, runOn_peek_bind] at h
  split at h
  next =>
    obtain ⟨rfl, rfl⟩ := runOn_pure_ok.1 h
    exact ⟨[], .refl _, rfl⟩
  next =>
    obtain ⟨e, _, he, h⟩ := runOn_bind_ok.1 h
    obtain ⟨rfl, rfl⟩ := runOn_pure_ok.1 h
    exact sound_expression hs he

theorem completable_expression? :
    Completable expression? fun w => ∃ value, SpellsValue w value := by
  intro stream after error hs h
  rw [expression?, runOn_peek_bind] at h
  split at h
  next => simp at h
  next =>
    refine (completable_expression hs (runOn_return_error.1 h)).mono fun w hw => ?_
    obtain ⟨e, de⟩ := hw
    exact ⟨[], some e, by simpa [SpellsValue] using de⟩

theorem halts_returnStatement (hs : stream.Ended) (kind : (stream.peek 0).kind = .returnWord)
    (h : returnStatement.runOn stream = (.error error, after)) :
    Halts (Stmt.Loose Token.line) stream after error := by
  have first := TokenStream.passes_advance hs (by simp [kind])
  have hended := first.ended hs
  rw [returnStatement, runOn_take_bind] at h
  refine (halts_closed (sound_expression? hended) (completable_expression? hended) h).behind first
    fun w hw => ?_
  obtain ⟨⟨value, hvalue⟩, ended⟩ := hw
  cases value with
  | none =>
    obtain rfl : _ = [] := hvalue
    exact ⟨[], .strict (.returnNothing kind ended)⟩
  | some e => exact ⟨[], by simpa using .strict (.returnValue kind hvalue ended)⟩

theorem exists_assignment : ∃ w a, Assignment.Derives Token.line w a := by
  obtain ⟨w, e, de⟩ := exists_spells Level.all
  let target : Token := ⟨.identifier, "", .start⟩
  let sign : Token := ⟨.assign, "", .start⟩
  have htarget : target.kind = .identifier := rfl
  have hsign : sign.kind = .assign := rfl
  exact ⟨_, _, .mk htarget hsign de⟩

theorem runOn_assignment (kind : (stream.peek 0).kind = .identifier) :
    assignment.runOn stream = (do
      let value ← expression
      return ⟨some (stream.peek 0).place.line,
        ⟨some (stream.peek 0).place.line, (stream.peek 0).text⟩, value⟩ : Parsing Assignment).runOn
          stream.advance.advance := by
  rw [assignment, runOn_expect_bind kind]
  simp only [identifier, bind_assoc, pure_bind, runOn_take_bind]

theorem halts_assignment (hs : stream.Ended) (sign : (stream.peek 1).kind = .assign)
    (h : assignment.runOn stream = (.error error, after)) :
    Halts (fun w => ∃ a, Assignment.Derives Token.line w a) stream after error := by
  by_cases kind : (stream.peek 0).kind = .identifier
  · have first := TokenStream.passes_advance hs (by simp [kind])
    have hsign : (stream.advance.peek 0).kind = .assign := stream.peek_zero_advance ▸ sign
    have second := TokenStream.passes_advance (first.ended hs) (by simp [hsign])
    rw [runOn_assignment kind, runOn_return_error] at h
    refine (completable_expression (second.ended (first.ended hs)) h).behind (first.trans second)
      fun w hw => ?_
    obtain ⟨e, de⟩ := hw
    exact ⟨[], _, by simpa using Assignment.Derives.mk kind hsign de⟩
  · rw [assignment, runOn_bind, runOn_expect_error.2 ⟨kind, rfl, rfl⟩] at h
    obtain ⟨rfl, rfl⟩ := h
    exact halts_front (.refl _) (by decide) exists_assignment

theorem halts_declaration (hs : stream.Ended) (kind : (stream.peek 0).kind = .letWord)
    (h : declaration.runOn stream = (.error error, after)) :
    Halts (Stmt.Loose Token.line) stream after error := by
  have first := TokenStream.passes_advance hs (by simp [kind])
  rw [declaration, runOn_take_bind, runOn_peek_bind, runOn_peek_bind] at h
  split at h
  next hk =>
    simp only [Bool.and_eq_true, decide_eq_true_eq] at hk
    refine (halts_closed (sound_assignment (first.ended hs) hk.2)
      (halts_assignment (first.ended hs) hk.2) h).behind first fun w hw => ?_
    obtain ⟨⟨a, da⟩, ended⟩ := hw
    exact ⟨[], by simpa using .strict (.declaration kind da ended)⟩
  next =>
    obtain ⟨rfl, rfl⟩ := runOn_fail_error.1 h
    obtain ⟨w, a, da⟩ := exists_assignment
    let closing : Token := ⟨.semicolon, "", .start⟩
    have ended : closing.kind = .semicolon := rfl
    exact halts_front first (by decide) ⟨w ++ [closing], .strict (.declaration kind da ended)⟩

def SpellsSimple (w : List Token) (s : Stmt) : Prop :=
  ∀ closing : Token, closing.kind = .semicolon → Stmt.Derives Token.line (w ++ [closing]) s

theorem sound_assignmentOrExpression : Sound assignmentOrExpression SpellsSimple := by
  intro stream after s hs h
  rw [assignmentOrExpression, runOn_peek_bind] at h
  split at h
  next sign =>
    obtain ⟨a, _, ha, h⟩ := runOn_bind_ok.1 h
    obtain ⟨rfl, rfl⟩ := runOn_pure_ok.1 h
    obtain ⟨w, passed, da⟩ := sound_assignment hs sign ha
    exact ⟨w, passed, fun closing ended => .assignment da ended⟩
  next =>
    obtain ⟨e, _, he, h⟩ := runOn_bind_ok.1 h
    obtain ⟨rfl, rfl⟩ := runOn_pure_ok.1 h
    obtain ⟨w, passed, de⟩ := sound_expression hs he
    exact ⟨w, passed, fun closing ended => .expression de ended⟩

theorem completable_assignmentOrExpression :
    Completable assignmentOrExpression fun w => ∃ s, SpellsSimple w s := by
  intro stream after error hs h
  rw [assignmentOrExpression, runOn_peek_bind] at h
  split at h
  next sign =>
    refine (halts_assignment hs sign (runOn_return_error.1 h)).mono fun w hw => ?_
    obtain ⟨a, da⟩ := hw
    exact ⟨[], _, fun closing ended => by simpa using .assignment da ended⟩
  next =>
    refine (completable_expression hs (runOn_return_error.1 h)).mono fun w hw => ?_
    obtain ⟨e, de⟩ := hw
    exact ⟨[], _, fun closing ended => by simpa using .expression de ended⟩

theorem completable_simpleStatement : Completable simpleStatement (Stmt.Loose Token.line) := by
  intro stream after error hs h
  refine (halts_closed (sound_assignmentOrExpression hs) (completable_assignmentOrExpression hs)
    h).mono fun w hw => ?_
  obtain ⟨⟨s, hs⟩, ended⟩ := hw
  exact ⟨[], by simpa using .strict (hs _ ended)⟩

-- ---------------------------------------------------------------------------
-- Blocks
-- ---------------------------------------------------------------------------

theorem exists_loose : ∃ w, Stmt.Loose Token.line w := by
  let word : Token := ⟨.returnWord, "", .start⟩
  let closing : Token := ⟨.semicolon, "", .start⟩
  have keyword : word.kind = .returnWord := rfl
  have ended : closing.kind = .semicolon := rfl
  exact ⟨_, .strict (.returnNothing keyword ended)⟩

theorem exists_looseBlock : ∃ w, Block.Loose Token.line w := by
  let opening : Token := ⟨.leftBrace, "", .start⟩
  let closing : Token := ⟨.rightBrace, "", .start⟩
  have left : opening.kind = .leftBrace := rfl
  have right : closing.kind = .rightBrace := rfl
  exact ⟨_, .mk left .nil right⟩

theorem completable_items {closing : Token.Kind → Bool} {item : Parsing Stmt}
    (hi : Sound item (Stmt.Derives Token.line))
    (hf : Completable item (Stmt.Loose Token.line)) (rounds : Nat) :
    Completable (items closing item rounds) (Stmt.LooseAll Token.line) := by
  induction rounds with
  | zero =>
    intro stream after error hs h
    simp [items] at h
  | succ rounds ih =>
    intro stream after error hs h
    simp only [items, runOn_peek_bind] at h
    split at h
    next => simp at h
    next =>
      rcases runOn_bind_error.1 h with h | ⟨s, middle, hone, h⟩
      · exact (hf hs h).mono fun w hw => ⟨[], .cons hw .nil⟩
      · obtain ⟨v, first, ds⟩ := hi hs hone
        refine (ih (first.ended hs) (runOn_return_error.1 h)).behind first fun w hw => ⟨[], ?_⟩
        simpa using .cons (.strict ds) hw

/-- Where a token of a kind is in front and a reader fails, its phrase is begun. -/
def CompletableAt (kind : Token.Kind) (parsing : Parsing α) (phrase : List Token → Prop) : Prop :=
  ∀ ⦃stream after error⦄, stream.Ended → (stream.peek 0).kind = kind →
    parsing.runOn stream = (.error error, after) → Halts phrase stream after error

theorem completable_block {statement : Parsing Stmt}
    (hb : Sound statement (Stmt.Derives Token.line))
    (hf : Completable statement (Stmt.Loose Token.line)) :
    CompletableAt .leftBrace (block statement) (Block.Loose Token.line) := by
  intro stream after error hs kind h
  have first := TokenStream.passes_advance hs (by simp [kind])
  let closing : Token := ⟨.rightBrace, "", .start⟩
  rw [block, runOn_take_bind, runOn_remaining_bind, runOn_bind_error] at h
  rcases h with h | ⟨body, _, hbody, h⟩
  · exact (completable_items hb hf _ (first.ended hs) h).behind first
      fun w hw => ⟨[closing], .mk kind hw rfl⟩
  · obtain ⟨w, second, dw⟩ := sound_items hb _ (first.ended hs) hbody
    obtain ⟨-, rfl, rfl⟩ := runOn_eat_error.1 (runOn_return_error.1 h)
    exact halts_front (first.trans second) (by decide) ⟨[closing], .mk kind dw.loose rfl⟩

-- ---------------------------------------------------------------------------
-- Choices
-- ---------------------------------------------------------------------------

theorem completable_otherwise {choice : Parsing Choice} {block : Parsing Block}
    (hc : CompletableAt .ifWord choice (Choice.Loose Token.line))
    (hb : CompletableAt .leftBrace block (Block.Loose Token.line)) :
    Completable (otherwise choice block) (Otherwise.Loose Token.line) := by
  intro stream after error hs h
  rw [otherwise, runOn_peek_bind] at h
  split at h
  next kind =>
    have first := TokenStream.passes_advance hs (by simp [kind])
    rw [runOn_take_bind, runOn_peek_bind] at h
    split at h
    case h_1 hk =>
      exact (hc (first.ended hs) hk (runOn_return_error.1 h)).behind first
        fun w hw => ⟨[], by simpa using .choice kind hw⟩
    case h_2 hk =>
      exact (hb (first.ended hs) hk (runOn_return_error.1 h)).behind first
        fun w hw => ⟨[], by simpa using .block kind hw⟩
    case h_3 =>
      obtain ⟨rfl, rfl⟩ := runOn_fail_error.1 h
      obtain ⟨w, hw⟩ := exists_looseBlock
      exact halts_front first (by decide) ⟨w, .block kind hw⟩
  next => simp at h

inductive Branches : List Token → Prop
  | mk (body : Block.Loose Token.line v) (otherwise : Otherwise.Loose Token.line w) :
      Branches (v ++ w)

theorem exists_branches : ∃ w, Branches w := by
  obtain ⟨body, hbody⟩ := exists_looseBlock
  exact ⟨_, .mk hbody .nothing⟩

theorem loose_choice {word : Token} (keyword : word.kind = .ifWord)
    (condition : Parenthesized (Spells Level.all) v) (branches : Branches w) :
    Choice.Loose Token.line (word :: (v ++ w)) := by
  obtain ⟨left, ⟨e, de⟩, right⟩ := condition
  obtain ⟨body, otherwise⟩ := branches
  simpa using Choice.Loose.mk keyword left de right body otherwise

theorem halts_branches {statement : Parsing Stmt} {choice : Parsing Choice}
    {f : Block → Otherwise → Choice} (hb : Sound statement (Stmt.Derives Token.line))
    (hf : Completable statement (Stmt.Loose Token.line))
    (hc : CompletableAt .ifWord choice (Choice.Loose Token.line)) (hs : stream.Ended)
    (brace : (stream.peek 0).kind = .leftBrace)
    (h : (do
      let body ← block statement
      let otherwise ← otherwise choice (block statement)
      return f body otherwise : Parsing Choice).runOn stream = (.error error, after)) :
    Halts Branches stream after error := by
  rcases runOn_bind_error.1 h with h | ⟨_, _, hblock, h⟩
  · exact (completable_block hb hf hs brace h).mono
      fun w hw => ⟨[], .mk hw .nothing⟩
  · obtain ⟨v, passed, db⟩ := sound_block hb hs brace hblock
    exact (completable_otherwise hc (completable_block hb hf) (passed.ended hs)
      (runOn_return_error.1 h)).behind passed fun w hw => ⟨[], by simpa using .mk db.loose hw⟩

theorem completable_choice {statement : Parsing Stmt}
    (hb : Sound statement (Stmt.Derives Token.line))
    (hf : Completable statement (Stmt.Loose Token.line)) (bound : Nat) :
    CompletableAt .ifWord (choice statement bound) (Choice.Loose Token.line) := by
  obtain ⟨opened, hopened⟩ := exists_parenthesized Level.all
  obtain ⟨branches, hbranches⟩ := exists_branches
  induction bound with
  | zero =>
    intro stream after error hs kind h
    obtain ⟨rfl, rfl⟩ := runOn_fail_error.1 h
    let word : Token := ⟨.ifWord, "", .start⟩
    have keyword : word.kind = .ifWord := rfl
    exact halts_front (.refl _) (by decide)
      ⟨word :: (opened ++ branches), loose_choice keyword hopened hbranches⟩
  | succ bound ih =>
    intro stream after error hs kind h
    have first := TokenStream.passes_advance hs (by simp [kind])
    rw [choice, runOn_take_bind, runOn_bind_error] at h
    rcases h with h | ⟨_, _, hopening, h⟩
    · obtain ⟨-, rfl, rfl⟩ := runOn_expect_error.1 h
      exact halts_front first (by decide)
        ⟨opened ++ branches, by simpa using loose_choice kind hopened hbranches⟩
    obtain ⟨left, rfl⟩ := runOn_expect_ok.1 hopening
    rcases runOn_bind_error.1 h with h | ⟨condition, middle, hcondition, h⟩
    · exact (halts_parenthesized sound_expression completable_expression (first.ended hs) left
        h).behind first fun w hw => ⟨branches, loose_choice kind hw hbranches⟩
    obtain ⟨w, closing, second, de, right⟩ :=
      sound_parenthesized sound_expression (first.ended hs) left hcondition
    have passed := first.trans second
    have read : Parenthesized (Spells Level.all) _ := .mk left ⟨condition, de⟩ right
    rcases runOn_bind_error.1 h with h | ⟨_, _, hbrace, h⟩
    · obtain ⟨-, rfl, rfl⟩ := runOn_expect_error.1 h
      exact halts_front passed (by decide) ⟨_, loose_choice kind read hbranches⟩
    obtain ⟨brace, rfl⟩ := runOn_expect_ok.1 hbrace
    split at h
    next uncompared =>
      rw [runOn_throw] at h
      obtain ⟨rfl, rfl⟩ : _ = error ∧ middle = after := by simpa using h
      exact ⟨_, passed, .condition [] rfl rfl kind left de uncompared right brace, _,
        loose_choice kind read hbranches⟩
    next =>
      exact (halts_branches hb hf ih (passed.ended hs) brace h).behind passed
        fun u hu => ⟨[], by simpa using loose_choice kind read hu⟩

-- ---------------------------------------------------------------------------
-- Statements
-- ---------------------------------------------------------------------------

theorem completable_statementWithin (bound : Nat) :
    Completable (statementWithin bound) (Stmt.Loose Token.line) := by
  induction bound with
  | zero =>
    intro stream after error hs h
    exact halts_unexpected exists_loose h
  | succ bound ih =>
    intro stream after error hs h
    have hb := sound_statementWithin bound
    rw [statementWithin, runOn_peek_bind] at h
    split at h
    case h_1 kind =>
      exact (completable_block hb ih hs kind (runOn_return_error.1 h)).mono
        fun w hw => ⟨[], by simpa using .block hw⟩
    case h_2 kind =>
      exact (completable_choice hb ih _ hs kind (runOn_return_error.1 h)).mono
        fun w hw => ⟨[], by simpa using .choice hw⟩
    case h_3 kind => exact halts_printStatement hs kind h
    case h_4 kind => exact halts_returnStatement hs kind h
    case h_5 kind => exact halts_declaration hs kind (runOn_return_error.1 h)
    case h_6 => exact completable_simpleStatement hs h

theorem completable_statement : Completable statement (Stmt.Loose Token.line) := by
  intro stream after error hs h
  rw [statement, runOn_remaining_bind] at h
  exact completable_statementWithin _ hs h

theorem completable_program : Completable program (Stmt.LooseAll Token.line) := by
  intro stream after error hs h
  rw [program, runOn_remaining_bind] at h
  exact completable_items sound_statement completable_statement _ hs (runOn_return_error.1 h)

end Rech.Parsing
