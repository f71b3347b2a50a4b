import Rech.Proofs.Run.Chains
import Rech.Proofs.Run.ErrorLines

/-!
# Blocks put in and taken out

A block opens no scope, and it gives no line to an error where its statements
have lines. So a program does the same when blocks that stand as statements give
way to the statements in them. It also does the same when choices that are chained
to others are put in blocks of their own, but for the line of an error: a
condition in such a chain then fails at a statement of its own.
-/

namespace Rech

/-- What is done to the blocks of a program, in any number of places. -/
inductive Regrouping where
  /-- A choice that is chained to another one is put in a block. -/
  | closing
  /-- A block that stands as a statement gives way to the statements in it. -/
  | opening

abbrev Errors := Store → EvalError.Cause → Prop

namespace Errors

def none : Errors := fun _ _ => False

def ofChain (first : Choice) : Errors := fun store cause =>
  ∃ condition ∈ first.tested store, condition.eval store = .error cause

def either (one other : Errors) : Errors := fun store cause => one store cause ∨ other store cause

def branch (condition : Comparison) (body otherwise : Errors) : Errors := fun store cause =>
  condition.eval store = .ok true ∧ body store cause ∨
    condition.eval store = .ok false ∧ otherwise store cause

def andThen (s : Stmt) (own others : Errors) : Errors := fun store cause =>
  own store cause ∨ (s.exec false store).outcome = .ok .normal ∧
    others (s.exec false store).store cause

end Errors

/-- The errors that may have another line: those that are moved, if chains are put
in blocks. -/
def Regrouping.Excuses (kind : Regrouping) (moved : Errors) (store : Store)
    (cause : EvalError.Cause) : Prop :=
  kind = .closing ∧ moved store cause

mutual
/-- A tree and the one it becomes. The errors are those that arise in the conditions
of the chains that are put in blocks. -/
inductive Stmt.Regrouped : Regrouping → Stmt → Stmt → Errors → Prop
  | same : Stmt.Regrouped kind s s .none
  | block (inside : Block.Regrouped kind b b' moved) :
      Stmt.Regrouped kind (.block b) (.block b') moved
  | choice (inside : Choice.Regrouped kind first first' moved) :
      Stmt.Regrouped kind (.choice first) (.choice first') moved

inductive Block.Regrouped : Regrouping → Block → Block → Errors → Prop
  | mk (inside : Stmt.AllRegrouped kind body body' moved) :
      Block.Regrouped kind (.mk line body) (.mk line body') moved

inductive Choice.Regrouped : Regrouping → Choice → Choice → Errors → Prop
  | mk (inside : Block.Regrouped kind b b' moved)
      (behind : Otherwise.Regrouped kind otherwise otherwise' others) :
      Choice.Regrouped kind (.mk line condition b otherwise) (.mk line condition b' otherwise')
        (.branch condition moved others)

inductive Otherwise.Regrouped : Regrouping → Otherwise → Otherwise → Errors → Prop
  | nothing : Otherwise.Regrouped kind .nothing .nothing .none
  | block (inside : Block.Regrouped kind b b' moved) :
      Otherwise.Regrouped kind (.block b) (.block b') moved
  | choice (inside : Choice.Regrouped kind first first' moved) :
      Otherwise.Regrouped kind (.choice first) (.choice first') moved
  | closed (inside : Choice.Regrouped .closing first first' moved) :
      Otherwise.Regrouped .closing (.choice first) (.block (.mk line [.choice first']))
        (.either (.ofChain first) moved)

inductive Stmt.AllRegrouped : Regrouping → List Stmt → List Stmt → Errors → Prop
  | nil : Stmt.AllRegrouped kind [] [] .none
  | cons (first : Stmt.Regrouped kind s s' moved)
      (behind : Stmt.AllRegrouped kind rest rest' others) :
      Stmt.AllRegrouped kind (s :: rest) (s' :: rest') (.andThen s moved others)
  | opened (inside : Stmt.AllRegrouped .opening body body' moved)
      (behind : Stmt.AllRegrouped .opening rest rest' others) :
      Stmt.AllRegrouped .opening (.block (.mk line body) :: rest) (body' ++ rest')
        (.andThen (.block (.mk line body)) moved others)
end

-- ---------------------------------------------------------------------------
-- Runs
-- ---------------------------------------------------------------------------

/-- A run shows, leaves and comes to the same as another one, but an excused error
may have another line. -/
inductive Run.AsBefore (excused : EvalError.Cause → Prop) : Run α → Run α → Prop
  | same : AsBefore excused run run
  | elsewhere {shown : List Event} {left : Store} {line line' : Option Int} (h : excused cause) :
      AsBefore excused ⟨shown, left, .error ⟨cause, line⟩⟩ ⟨shown, left, .error ⟨cause, line'⟩⟩

namespace Run.AsBefore

variable {run twin : Run Completion} {p q : EvalError.Cause → Prop}

theorem mono (hpq : ∀ cause, p cause → q cause) (h : AsBefore p run twin) :
    AsBefore q run twin := by
  cases h with
  | same => exact .same
  | elsewhere hp => exact .elsewhere (hpq _ hp)

theorem eq (h : AsBefore p run twin) (hp : ∀ cause, ¬p cause) : twin = run := by
  cases h with
  | same => rfl
  | elsewhere excused => exact absurd excused (hp _)

theorem trans (h : AsBefore p run twin) (h' : AsBefore p twin last) : AsBefore p run last := by
  cases h with
  | same => exact h'
  | elsewhere hp =>
    cases h' with
    | same => exact .elsewhere hp
    | elsewhere _ => exact .elsewhere hp

theorem located (h : AsBefore p run twin) (line : Option Int) :
    AsBefore p (run.located line) (twin.located line) := by
  cases h with
  | same => exact .same
  | elsewhere hp => exact .elsewhere hp

theorem after (h : AsBefore p run twin) (events : List Event) :
    AsBefore p (run.after events) (twin.after events) := by
  cases h with
  | same => exact .same
  | elsewhere hp => exact .elsewhere hp

theorem andThen {next next' : Store → Run Completion} (h : AsBefore p run twin)
    (hnext : run.outcome = .ok .normal → AsBefore p (next run.store) (next' run.store)) :
    AsBefore p (run.andThen next) (twin.andThen next') := by
  cases h with
  | elsewhere excused => exact .elsewhere excused
  | same =>
    by_cases hnormal : run.outcome = .ok .normal
    · rw [andThen_of_normal hnormal, andThen_of_normal hnormal]
      exact (hnext hnormal).after run.events
    · rw [andThen_of_not_normal hnormal, andThen_of_not_normal hnormal]
      exact .same

theorem widen {kind : Regrouping} {moved wider : Errors} {found found' : Store}
    (h : AsBefore (kind.Excuses moved found) run twin)
    (hwider : ∀ cause, moved found cause → wider found' cause) :
    AsBefore (kind.Excuses wider found') run twin :=
  h.mono fun cause ⟨hkind, hmoved⟩ => ⟨hkind, hwider cause hmoved⟩

end Run.AsBefore

/-- What fails in a statement that has a line has a line, so one around it adds none. -/
theorem Stmt.located_execAll (trace : Bool) (store : Store) (line : Option Int)
    {body : List Stmt} (lined : ∀ s ∈ allStatements body, s.line.isSome) :
    (execAll trace store body).located line = execAll trace store body := by
  induction body generalizing store with
  | nil => rfl
  | cons s rest ih =>
    obtain ⟨n, hn⟩ := Option.isSome_iff_exists.1 (lined s (by simp [allStatements]))
    have hfirst : (s.exec trace store).located line = s.exec trace store := by
      rw [exec_eq, around, Run.located_after, Run.located_located, hn]
      rfl
    have hrest : ∀ store, (execAll trace store rest).located line = execAll trace store rest :=
      fun store => ih store fun t ht => lined t (by simp [allStatements, ht])
    simp only [execAll, Run.located_andThen, hfirst, hrest]

theorem Stmt.exec_block {outer : Option Int} {body : List Stmt}
    (lined : ∀ s ∈ allStatements body, s.line.isSome) :
    (Stmt.block (.mk outer body)).exec false store = execAll false store body :=
  located_execAll false store outer lined

/-- What stands around a choice changes the line of an error only if a condition in
its chain fails. -/
theorem Choice.located_exec (store : Store) (line : Option Int) {first : Choice}
    (lined : ∀ s ∈ first.statements, s.line.isSome) :
    Run.AsBefore (Errors.ofChain first store) (first.exec false store)
      ((first.exec false store).located line) := by
  rw [Choice.exec_eq]
  cases h : first.taken store with
  | error cause =>
    have hchain : Errors.ofChain first store cause := exists_tested_of_taken h
    exact .elsewhere hchain
  | ok body =>
    have hbody := Stmt.located_execAll false store line fun s hs =>
      lined s ((first.taken_sublist store h).mem hs)
    rw [Run.given, hbody]
    exact .same

theorem Choice.Regrouped.line_eq (h : Choice.Regrouped kind first first' moved) :
    first'.line = first.line := by
  cases h
  rfl

theorem Block.Regrouped.line_eq (h : Block.Regrouped kind b b' moved) : b'.line = b.line := by
  cases h
  rfl

mutual
theorem Stmt.Regrouped.asBefore (h : Stmt.Regrouped kind s s' moved)
    (lined : ∀ t ∈ s.inner, t.line.isSome) (store : Store) :
    Run.AsBefore (kind.Excuses moved store) (s.exec false store) (s'.exec false store) := by
  cases h with
  | same => exact .same
  | block inside =>
    simp only [Stmt.exec, Stmt.around, Stmt.line, inside.line_eq]
    exact ((inside.asBefore lined store).located _).after []
  | choice inside =>
    simp only [Stmt.exec, Stmt.around, Stmt.line, inside.line_eq]
    exact ((inside.asBefore lined store).located _).after []
termination_by structural s

theorem Block.Regrouped.asBefore (h : Block.Regrouped kind b b' moved)
    (lined : ∀ t ∈ b.statements, t.line.isSome) (store : Store) :
    Run.AsBefore (kind.Excuses moved store) (b.exec false store) (b'.exec false store) := by
  cases h with
  | mk inside => exact inside.asBefore lined store
termination_by structural b

theorem Choice.Regrouped.asBefore (h : Choice.Regrouped kind first first' moved)
    (lined : ∀ t ∈ first.statements, t.line.isSome) (store : Store) :
    Run.AsBefore (kind.Excuses moved store) (first.exec false store)
      (first'.exec false store) := by
  cases h with
  | @mk _ _ _ _ _ _ _ _ condition inside behind =>
    obtain ⟨hinside, hbehind⟩ := List.forall_mem_append.1 lined
    simp only [Choice.exec]
    cases hcondition : condition.eval store with
    | error cause => exact .same
    | ok holds =>
      cases holds with
      | true =>
        exact (inside.asBefore hinside store).widen fun _ hmoved => .inl ⟨hcondition, hmoved⟩
      | false =>
        exact (behind.asBefore hbehind store).widen fun _ hmoved => .inr ⟨hcondition, hmoved⟩
termination_by structural first

theorem Otherwise.Regrouped.asBefore (h : Otherwise.Regrouped kind otherwise otherwise' moved)
    (lined : ∀ t ∈ otherwise.statements, t.line.isSome) (store : Store) :
    Run.AsBefore (kind.Excuses moved store) (otherwise.exec false store)
      (otherwise'.exec false store) := by
  cases h with
  | nothing => exact .same
  | block inside => exact inside.asBefore lined store
  | choice inside => exact inside.asBefore lined store
  | @closed first first' _ _ inside =>
    -- The choice is a statement in its block, and gives its own line to an error.
    have hline := Choice.located_exec store first'.line lined
    have hinside := (inside.asBefore lined store).located first'.line
    have hstatement : Stmt.execAll false store [.choice first'] =
        (first'.exec false store).located first'.line := by
      rw [Stmt.execAll]
      exact Run.andThen_done _
    show Run.AsBefore _ (first.exec false store) (Stmt.execAll false store [.choice first'])
    rw [hstatement]
    exact (hline.mono fun _ hchain => ⟨rfl, .inl hchain⟩).trans (hinside.widen fun _ => Or.inr)
termination_by structural otherwise

theorem Stmt.AllRegrouped.asBefore (h : Stmt.AllRegrouped kind body body' moved)
    (lined : ∀ t ∈ Stmt.allStatements body, t.line.isSome) (store : Store) :
    Run.AsBefore (kind.Excuses moved store) (Stmt.execAll false store body)
      (Stmt.execAll false store body') := by
  cases h with
  | nil => exact .same
  | cons first behind =>
    obtain ⟨-, lined⟩ := List.forall_mem_cons.1 lined
    obtain ⟨hinner, hrest⟩ := List.forall_mem_append.1 lined
    exact ((first.asBefore hinner store).widen fun _ => Or.inl).andThen fun passed =>
      (behind.asBefore hrest _).widen fun _ hmoved => .inr ⟨passed, hmoved⟩
  | opened inside behind =>
    obtain ⟨-, lined⟩ := List.forall_mem_cons.1 lined
    obtain ⟨hinner, hrest⟩ := List.forall_mem_append.1 lined
    have hinside := inside.asBefore hinner store
    -- The block has no line to give, since the statements in it have theirs.
    rw [← Stmt.exec_block hinner] at hinside
    rw [Stmt.execAll_append, Stmt.execAll]
    exact (hinside.widen fun _ => Or.inl).andThen fun passed =>
      (behind.asBefore hrest _).widen fun _ hmoved => .inr ⟨passed, hmoved⟩
termination_by structural body
end

-- ---------------------------------------------------------------------------
-- Programs
-- ---------------------------------------------------------------------------

namespace Program

/-- Choices that are chained to others are put in blocks: `иначе если` becomes
`иначе`, and a block with the choice in it. -/
def ChainsClosed (program twin : Program) (moved : Errors) : Prop :=
  Stmt.AllRegrouped .closing program.body twin.body moved

/-- Blocks that stand as statements give way to the statements in them. -/
def BlocksOpened (program twin : Program) : Prop :=
  ∃ moved, Stmt.AllRegrouped .opening program.body twin.body moved

/-- A chain evaluates its conditions up to the first that holds or fails, and does
what the block of that condition does. To put chained choices in blocks changes the
line of an error that arises in a condition of such a chain, and nothing else. -/
theorem chains_select_first :
    (∀ (first : Choice) (trace : Bool) (store : Store), ∃ selected,
      Selects store first.arms first.fallback (first.tested store) selected ∧
        (Stmt.choice first).exec trace store = (Stmt.choice first).around trace
          (.given store selected fun body =>
            Stmt.execAll trace store (Block.selectedBody body))) ∧
    ∀ (program twin : Program) (moved : Errors), program.Lined →
      program.ChainsClosed twin moved → ∀ store,
        Run.AsBefore (moved store) (program.exec false store) (twin.exec false store) := by
  refine ⟨fun first trace store => first.exists_selects_exec trace store, ?_⟩
  intro program twin moved lined closed store
  exact (Stmt.AllRegrouped.asBefore closed lined store).mono fun _ ⟨_, hmoved⟩ => hmoved

/-- `если (0 < 0) { } иначе если (0 < a) { }` on two lines, and its second choice in
a block. The second condition fails on another line there. -/
theorem chains_select_first_failing :
    let zero : Expr := .number (some 1) (.zero false)
    let second : Choice := .mk (some 2) ⟨some 2, zero, "<", .identifier ⟨some 2, "a"⟩⟩
      (.mk (some 2) []) .nothing
    let first (otherwise : Otherwise) : Stmt :=
      .choice (.mk (some 1) ⟨some 1, zero, "<", zero⟩ (.mk (some 1) []) otherwise)
    let program : Program := ⟨[first (.choice second)]⟩
    let twin : Program := ⟨[first (.block (.mk (some 2) [.choice second]))]⟩
    (∃ moved, program.Lined ∧ program.ChainsClosed twin moved ∧
      Run.AsBefore (moved ∅) (program.exec false ∅) (twin.exec false ∅)) ∧
      (program.exec false ∅).outcome = .error ⟨.unknownName "a", some 1⟩ ∧
      (twin.exec false ∅).outcome = .error ⟨.unknownName "a", some 2⟩ := by
  intro zero second first program twin
  have lined : program.Lined := by decide
  have hsecond : Choice.Regrouped .closing second second _ := .mk (.mk .nil) .nothing
  have closed : program.ChainsClosed twin _ :=
    .cons (.choice (.mk (.mk .nil) (.closed hsecond))) .nil
  obtain ⟨-, asBefore⟩ := chains_select_first
  refine ⟨⟨_, lined, closed, asBefore program twin _ lined closed ∅⟩, ?_, ?_⟩
  · decide +kernel
  · decide +kernel

/-- Blocks open no scope: to take out blocks that stand as statements changes
nothing. -/
theorem blocks_open_no_scope {program twin : Program} (lined : program.Lined)
    (h : program.BlocksOpened twin) :
    (∀ store, twin.exec false store = program.exec false store) ∧
      twin.run false = program.run false := by
  obtain ⟨moved, opened⟩ := h
  have hexec (store : Store) : twin.exec false store = program.exec false store :=
    (Stmt.AllRegrouped.asBefore opened lined store).eq fun _ ⟨hkind, _⟩ => nomatch hkind
  exact ⟨hexec, by rw [run, run, hexec]⟩

/-- `{ { пусть a = 0; } если (a == 0) { { вернуть a; } } }`, and its statements without
the blocks. What a block declares is there behind it, and a return ends all of
them. -/
theorem blocks_open_no_scope_returning :
    let a : Identifier := ⟨some 1, "a"⟩
    let zero : Expr := .number (some 1) (.zero false)
    let declared : Stmt := .declaration ⟨some 1, a, ⟨some 1, a, zero⟩⟩
    let returned : Stmt := .return (some 1) (some (.identifier a))
    let block (body : List Stmt) : Stmt := .block (.mk (some 1) body)
    let choice (body : List Stmt) : Stmt :=
      .choice (.mk (some 1) ⟨some 1, .identifier a, "==", zero⟩ (.mk (some 1) body) .nothing)
    let program : Program := ⟨[block [block [declared], choice [block [returned]]]]⟩
    let twin : Program := ⟨[declared, choice [returned]]⟩
    (program.Lined ∧ program.BlocksOpened twin) ∧
      ((∀ store, twin.exec false store = program.exec false store) ∧
        twin.run false = program.run false) ∧
      (program.exec false ∅).outcome = .ok (.returned (some (.number (.zero false)))) := by
  intro a zero declared returned block choice program twin
  have lined : program.Lined := by decide
  have opened : program.BlocksOpened twin := by
    have hreturned : Stmt.AllRegrouped .opening [block [returned]] [returned] _ :=
      .opened (.cons .same .nil) .nil
    exact ⟨_, .opened (.opened (.cons .same .nil)
      (.cons (.choice (.mk (.mk hreturned) .nothing)) .nil)) .nil⟩
  refine ⟨⟨lined, opened⟩, blocks_open_no_scope lined opened, ?_⟩
  decide +kernel

end Program

end Rech
