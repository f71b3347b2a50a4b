import Rech.Proofs.Run.Joining
import Rech.Proofs.Tree.Courses

/-!
# Running one statement at a time

A statement does something of its own and may open others: a block opens its
body, and a choice the body it takes. So a run goes through a list of tasks:
the first one does what it does of its own, and what it opens comes before the
tasks behind it (`Task.execAll_cons`). The statements that are executed in this
way, each with the store it finds, are the visits of the run. Events, outcome
and final store of a run can be read off its visits.
-/

namespace Rech

-- ---------------------------------------------------------------------------
-- What a statement does of its own
-- ---------------------------------------------------------------------------

mutual
/-- The body that a choice takes, or nothing. -/
def Choice.taken (store : Store) : Choice → Except EvalError.Cause (List Stmt)
  | .mk _ condition body otherwise =>
    match condition.eval store with
    | .ok true => .ok body.body
    | .ok false => otherwise.taken store
    | .error cause => .error cause

def Otherwise.taken (store : Store) : Otherwise → Except EvalError.Cause (List Stmt)
  | .nothing => .ok []
  | .block chosen => .ok chosen.body
  | .choice chosen => chosen.taken store
end

/-- What a statement does without those it opens. -/
def Stmt.own (store : Store) : Stmt → Run Completion
  | .block _ => .done store .normal
  | .choice first => .given store (first.taken store) fun _ => .done store .normal
  | .print _ value => value.print store
  | .return _ value => Expr.return store value
  | .declaration declared => declared.exec store
  | .assignment assigned => assigned.exec store
  | .expression value => value.discard store

def Stmt.opened (store : Store) : Stmt → List Stmt
  | .block inner => inner.body
  | .choice first =>
    match first.taken store with
    | .ok body => body
    | .error _ => []
  | _ => []

theorem Assignment.exec_cases (store : Store) (assigned : Assignment) :
    (assigned.target.symbol ∉ store ∧
      assigned.exec store = .fail store (.unknownName assigned.target.symbol)) ∨
    assigned.target.symbol ∈ store ∧
      ((∃ cause, assigned.value.eval store = .error cause ∧
        assigned.exec store = .fail store cause) ∨
      ∃ value, assigned.value.eval store = .ok value ∧
        assigned.exec store = .done (store.insert assigned.target.symbol value) .normal) := by
  rw [exec]
  by_cases known : assigned.target.symbol ∈ store
  · refine .inr ⟨known, ?_⟩
    rw [if_pos (Std.TreeMap.mem_iff_contains.1 known)]
    cases h : assigned.value.eval store with
    | error cause => exact .inl ⟨cause, rfl, rfl⟩
    | ok value => exact .inr ⟨value, rfl, rfl⟩
  · exact .inl ⟨known, if_neg (mt Std.TreeMap.mem_iff_contains.2 known)⟩

theorem Block.exec_eq (trace : Bool) (store : Store) (b : Block) :
    b.exec trace store = Stmt.execAll trace store b.body := by
  cases b
  rfl

mutual
theorem Choice.exec_eq (trace : Bool) (store : Store) : (first : Choice) →
    first.exec trace store = .given store (first.taken store) (Stmt.execAll trace store)
  | .mk _ condition body otherwise => by
    rw [Choice.exec, Choice.taken]
    cases condition.eval store with
    | error cause => rfl
    | ok holds =>
      cases holds with
      | true => exact body.exec_eq trace store
      | false => exact otherwise.exec_eq trace store

theorem Otherwise.exec_eq (trace : Bool) (store : Store) : (otherwise : Otherwise) →
    otherwise.exec trace store = .given store (otherwise.taken store) (Stmt.execAll trace store)
  | .nothing => rfl
  | .block chosen => chosen.exec_eq trace store
  | .choice chosen => chosen.exec_eq trace store
end

mutual
theorem Choice.taken_sublist (store : Store) {body : List Stmt} : (first : Choice) →
    first.taken store = .ok body → (Stmt.allStatements body).Sublist first.statements
  | .mk _ condition chosen otherwise => by
    intro h
    rw [Choice.taken] at h
    rw [Choice.statements]
    split at h
    next =>
      obtain rfl := Except.ok.inj h
      rw [Block.allStatements_body]
      exact List.sublist_append_left _ _
    next => exact (otherwise.taken_sublist store h).trans (List.sublist_append_right _ _)
    next => cases h

theorem Otherwise.taken_sublist (store : Store) {body : List Stmt} : (otherwise : Otherwise) →
    otherwise.taken store = .ok body → (Stmt.allStatements body).Sublist otherwise.statements
  | .nothing => by
    rintro ⟨⟩
    exact .slnil
  | .block chosen => by
    rintro ⟨⟩
    rw [Block.allStatements_body]
    exact List.Sublist.refl _
  | .choice chosen => chosen.taken_sublist store
end

theorem Stmt.opened_sublist (store : Store) (s : Stmt) :
    (Stmt.allStatements (s.opened store)).Sublist s.inner := by
  cases s with
  | block inner =>
    simp only [Stmt.opened, Stmt.inner, Block.allStatements_body, List.Sublist.refl]
  | choice first =>
    rw [Stmt.opened, Stmt.inner]
    split
    next h => exact first.taken_sublist store h
    next => exact List.nil_sublist _
  | _ => exact List.Sublist.refl _

mutual
theorem Choice.branch_of_taken (hw : Stmt.Course opened w) :
    (first : Choice) → first.taken store = .ok opened → Choice.Branch first w
  | .mk _ condition body other => by
    intro h
    rw [Choice.taken] at h
    split at h
    next =>
      obtain rfl := Except.ok.inj h
      exact .body hw
    next => exact .otherwise (other.branch_of_taken hw h)
    next => cases h

theorem Otherwise.branch_of_taken (hw : Stmt.Course opened w) :
    (other : Otherwise) → other.taken store = .ok opened → Otherwise.Branch other w
  | .nothing => by
    rintro ⟨⟩
    cases hw with
    | stop => exact .nothing
  | .block chosen => by
    rintro ⟨⟩
    exact .block hw
  | .choice chosen => fun h => .choice (chosen.branch_of_taken hw h)
end

theorem Stmt.inside_of_opened {s : Stmt} (h : Stmt.Course (s.opened store) w) :
    Stmt.Inside s w := by
  cases s with
  | block inner => exact .block h
  | choice first =>
    rw [Stmt.opened] at h
    split at h
    next htaken => exact .choice (first.branch_of_taken h htaken)
    next =>
      cases h with
      | stop => exact .nothing
  | _ =>
    cases h with
    | stop => exact .nothing

-- ---------------------------------------------------------------------------
-- The step
-- ---------------------------------------------------------------------------

namespace Run

theorem located_none (run : Run α) : run.located none = run := by
  obtain ⟨events, store, outcome⟩ := run
  rcases outcome with ⟨cause, line⟩ | a
  · cases line <;> rfl
  · rfl

theorem located_located (run : Run α) (line outer : Option Int) :
    (run.located line).located outer = run.located (line <|> outer) := by
  obtain ⟨events, store, outcome⟩ := run
  rcases outcome with ⟨cause, own⟩ | a
  · cases own <;> rfl
  · rfl

theorem located_after (events : List Event) (run : Run α) (line : Option Int) :
    (run.after events).located line = (run.located line).after events := rfl

theorem outcome_located_ok {run : Run α} {a : α} (line : Option Int) :
    (run.located line).outcome = .ok a ↔ run.outcome = .ok a := by
  obtain ⟨events, store, outcome⟩ := run
  cases outcome with
  | error error => exact ⟨nofun, nofun⟩
  | ok b => exact Iff.rfl

theorem located_andThen (run : Run Completion) (next : Store → Run Completion)
    (line : Option Int) :
    (run.andThen next).located line =
      (run.located line).andThen fun store => (next store).located line := by
  by_cases h : run.outcome = .ok .normal
  · rw [andThen_of_normal h, andThen_of_normal ((outcome_located_ok line).2 h)]
    rfl
  · rw [andThen_of_not_normal h, andThen_of_not_normal (mt (outcome_located_ok line).1 h)]

theorem andThen_done (run : Run Completion) :
    (run.andThen fun store => done store .normal) = run := by
  by_cases h : run.outcome = .ok .normal
  · rw [andThen_of_normal h]
    obtain ⟨events, store, outcome⟩ := run
    obtain rfl : outcome = .ok .normal := h
    simp [after, done]
  · rw [andThen_of_not_normal h]

end Run

/-- A statement to be executed. An error that finds no line there has the line
of the statement around it. -/
structure Task where
  outer : Option Int
  statement : Stmt

namespace Task

def line (task : Task) : Option Int := task.statement.line <|> task.outer

def exec (trace : Bool) (store : Store) (task : Task) : Run Completion :=
  (task.statement.exec trace store).located task.outer

def execAll (trace : Bool) (store : Store) : List Task → Run Completion
  | [] => .done store .normal
  | task :: others => (task.exec trace store).andThen fun next => execAll trace next others

def own (store : Store) (task : Task) : Run Completion :=
  (task.statement.own store).located task.line

def announcement (trace : Bool) (task : Task) : List Event :=
  if trace then [.executing task.statement.line task.statement.kindName] else []

def opened (store : Store) (task : Task) : List Task :=
  (task.statement.opened store).map fun statement => ⟨task.line, statement⟩

theorem execAll_append (trace : Bool) (store : Store) (tasks others : List Task) :
    execAll trace store (tasks ++ others) =
      (execAll trace store tasks).andThen fun next => execAll trace next others := by
  induction tasks generalizing store with
  | nil => rw [List.nil_append, execAll, Run.done_andThen]
  | cons task rest ih => simp only [List.cons_append, execAll, ih, Run.andThen_assoc]

theorem map_statement (outer : Option Int) (body : List Stmt) :
    (body.map fun statement => (⟨outer, statement⟩ : Task)).map Task.statement = body := by
  simp [Function.comp_def]

theorem execAll_map (trace : Bool) (store : Store) (outer : Option Int) (body : List Stmt) :
    execAll trace store (body.map fun statement => ⟨outer, statement⟩) =
      (Stmt.execAll trace store body).located outer := by
  induction body generalizing store with
  | nil => rfl
  | cons s rest ih =>
    simp only [List.map_cons, execAll, exec, ih, Stmt.execAll, Run.located_andThen]

end Task

theorem Stmt.exec_eq (trace : Bool) (store : Store) (s : Stmt) :
    s.exec trace store =
      s.around trace ((s.own store).andThen fun next =>
        Stmt.execAll trace next (s.opened store)) := by
  cases s with
  | block inner =>
    rw [Stmt.exec, Stmt.own, Stmt.opened, Run.done_andThen, Block.exec_eq]
  | choice first =>
    rw [Stmt.exec, Stmt.own, Stmt.opened, Choice.exec_eq]
    cases first.taken store with
    | error cause => rfl
    | ok body => simp only [Run.given, Run.done_andThen]
  | _ => simp only [Stmt.exec, Stmt.own, Stmt.opened, Stmt.execAll, Run.andThen_done]

namespace Task

theorem exec_eq (trace : Bool) (store : Store) (task : Task) :
    task.exec trace store =
      ((task.own store).andThen fun next => execAll trace next (task.opened store)).after
        (task.announcement trace) := by
  simp only [opened, execAll_map]
  rw [exec, Stmt.exec_eq, Stmt.around, Run.located_after, Run.located_located,
    Run.located_andThen]
  rfl

theorem execAll_cons (trace : Bool) (store : Store) (task : Task) (others : List Task) :
    execAll trace store (task :: others) =
      ((task.own store).andThen fun next =>
        execAll trace next (task.opened store ++ others)).after (task.announcement trace) := by
  simp only [execAll, exec_eq, Run.after_andThen, Run.andThen_assoc, execAll_append]

/-- The statements of all tasks, in the order in which they stand. -/
def statements (tasks : List Task) : List Stmt := Stmt.allStatements (tasks.map Task.statement)

theorem statements_cons (task : Task) (others : List Task) :
    statements (task :: others) =
      task.statement :: (task.statement.inner ++ statements others) := rfl

theorem statements_opened_sublist (store : Store) (task : Task) (others : List Task) :
    (statements (task.opened store ++ others)).Sublist
      (task.statement.inner ++ statements others) := by
  rw [statements, List.map_append, opened, map_statement, Stmt.allStatements_append]
  exact (task.statement.opened_sublist store).append (List.Sublist.refl _)

end Task

-- ---------------------------------------------------------------------------
-- Visits
-- ---------------------------------------------------------------------------

/-- A statement that is executed, and the store it finds. -/
structure Visit extends Task where
  store : Store

namespace Visit

def own (visit : Visit) : Run Completion := visit.toTask.own visit.store

def events (trace : Bool) (visit : Visit) : List Event :=
  visit.announcement trace ++ visit.own.events

def Passed (visit : Visit) : Prop := visit.own.outcome = .ok .normal

end Visit

/-- The statements that a run through tasks executes. -/
def Task.visits (store : Store) : List Task → List Visit
  | [] => []
  | task :: others =>
    ⟨task, store⟩ ::
      match (task.own store).outcome with
      | .ok .normal => Task.visits (task.own store).store (task.opened store ++ others)
      | _ => []
termination_by tasks => (Task.statements tasks).length
decreasing_by
  have hle := (Task.statements_opened_sublist store task others).length_le
  rw [Task.statements_cons, List.length_cons]
  omega

namespace Task

theorem visits_nil (store : Store) : visits store [] = [] := by
  rw [visits]

theorem visits_cons_of_normal (h : (own store task).outcome = .ok .normal) :
    visits store (task :: others) =
      ⟨task, store⟩ :: visits (own store task).store (opened store task ++ others) := by
  rw [visits, h]

theorem visits_cons_of_not_normal (h : (own store task).outcome ≠ .ok .normal) :
    visits store (task :: others) = [⟨task, store⟩] := by
  rw [visits]
  split
  next hnormal => exact absurd hnormal h
  next => rfl

theorem mem_visits_head (store : Store) (task : Task) (others : List Task) :
    ⟨task, store⟩ ∈ visits store (task :: others) := by
  rw [visits]
  exact List.mem_cons_self

theorem mem_visits_of_normal (h : (own store task).outcome = .ok .normal)
    (hmem : visit ∈ visits (own store task).store (opened store task ++ others)) :
    visit ∈ visits store (task :: others) := by
  rw [visits_cons_of_normal h]
  exact List.mem_cons_of_mem _ hmem

/-- An induction over the steps of a run: the first task ends the run, or what
it opens and the tasks behind it go on from the store it leaves. -/
theorem steps_induction {motive : Store → List Task → Prop}
    (nil : ∀ store, motive store [])
    (stop : ∀ store task others, (own store task).outcome ≠ .ok .normal →
      motive store (task :: others))
    (step : ∀ store task others, (own store task).outcome = .ok .normal →
      motive (own store task).store (opened store task ++ others) → motive store (task :: others))
    (store : Store) (tasks : List Task) : motive store tasks := by
  induction hn : (statements tasks).length using Nat.strongRecOn generalizing store tasks with
  | ind n ih =>
    cases tasks with
    | nil => exact nil store
    | cons task others =>
      by_cases h : (own store task).outcome = .ok .normal
      · have hle := (statements_opened_sublist store task others).length_le
        rw [statements_cons, List.length_cons] at hn
        exact step store task others h (ih _ (by omega) _ _ rfl)
      · exact stop store task others h

theorem events_execAll (trace : Bool) (store : Store) (tasks : List Task) :
    (execAll trace store tasks).events = (visits store tasks).flatMap (Visit.events trace) := by
  induction store, tasks using steps_induction with
  | nil store => rw [visits_nil]; rfl
  | stop store task others h =>
    rw [execAll_cons, Run.andThen_of_not_normal h, visits_cons_of_not_normal h]
    simp [Run.after, Visit.events, Visit.own]
  | step store task others h ih =>
    rw [execAll_cons, Run.andThen_of_normal h, visits_cons_of_normal h, List.flatMap_cons, ← ih]
    simp [Run.after, Visit.events, Visit.own]

/-- A run follows a course: what a task opens and the tasks behind it follow one,
which is cut where the tasks behind it begin. -/
theorem course_visits (store : Store) (tasks : List Task) :
    Stmt.Course (tasks.map Task.statement)
      ((visits store tasks).map fun visit => visit.statement) := by
  induction store, tasks using steps_induction with
  | nil store =>
    rw [visits_nil]
    exact .stop
  | stop store task others h =>
    rw [visits_cons_of_not_normal h]
    exact .next .nothing .stop
  | step store task others h ih =>
    have hopened : (opened store task).map Task.statement = task.statement.opened store :=
      map_statement task.line _
    rw [List.map_append, hopened] at ih
    obtain ⟨u, v, hw, hu, hv⟩ := ih.exists_append
    rw [visits_cons_of_normal h, List.map_cons, List.map_cons, hw]
    exact .next (Stmt.inside_of_opened hu) hv

theorem visits_sublist (store : Store) (tasks : List Task) :
    ((visits store tasks).map fun visit => visit.statement).Sublist (statements tasks) :=
  (course_visits store tasks).sublist

end Task

/-- How a run ends, by its visits: every statement ended and the run is normal,
or the last one ended the run as it ended itself. -/
inductive Visit.Ends (run : Run Completion) : List Visit → Prop
  | normal {visits : List Visit} (passed : ∀ visit ∈ visits, visit.Passed)
      (outcome : run.outcome = .ok .normal) : Ends run visits
  | stopped {earlier : List Visit} {last : Visit} (passed : ∀ visit ∈ earlier, visit.Passed)
      (stops : ¬last.Passed) (outcome : run.outcome = last.own.outcome)
      (store : run.store = last.own.store) : Ends run (earlier ++ [last])

namespace Visit.Ends

theorem after (h : Ends run visits) (events : List Event) : Ends (run.after events) visits := by
  cases h with
  | normal passed outcome => exact .normal passed outcome
  | stopped passed stops outcome store => exact .stopped passed stops outcome store

theorem single {visit : Visit} (stops : ¬visit.Passed) : Ends visit.own [visit] :=
  .stopped (List.forall_mem_nil Passed) stops rfl rfl

theorem cons {visit : Visit} (passed : visit.Passed) (h : Ends run visits) :
    Ends run (visit :: visits) := by
  cases h with
  | normal others outcome => exact .normal (List.forall_mem_cons.2 ⟨passed, others⟩) outcome
  | stopped others stops outcome store =>
    exact .stopped (List.forall_mem_cons.2 ⟨passed, others⟩) stops outcome store

end Visit.Ends

namespace Task

theorem ends_execAll (trace : Bool) (store : Store) (tasks : List Task) :
    Visit.Ends (execAll trace store tasks) (visits store tasks) := by
  induction store, tasks using steps_induction with
  | nil store =>
    rw [visits_nil]
    exact .normal (List.forall_mem_nil Visit.Passed) rfl
  | stop store task others h =>
    rw [execAll_cons, Run.andThen_of_not_normal h, visits_cons_of_not_normal h]
    have stops : ¬Visit.Passed ⟨task, store⟩ := h
    exact (Visit.Ends.single stops).after _
  | step store task others h ih =>
    have passed : Visit.Passed ⟨task, store⟩ := h
    rw [execAll_cons, Run.andThen_of_normal h, visits_cons_of_normal h]
    exact ((ih.cons passed).after _).after _

end Task

-- ---------------------------------------------------------------------------
-- Programs
-- ---------------------------------------------------------------------------

namespace Program

def tasks (program : Program) : List Task :=
  program.body.map fun statement => ⟨none, statement⟩

def visits (store : Store) (program : Program) : List Visit := Task.visits store program.tasks

theorem exec_eq (trace : Bool) (store : Store) (program : Program) :
    program.exec trace store = Task.execAll trace store program.tasks := by
  rw [tasks, Task.execAll_map, Run.located_none]
  rfl

theorem events_exec (trace : Bool) (store : Store) (program : Program) :
    (program.exec trace store).events = (program.visits store).flatMap (Visit.events trace) := by
  rw [exec_eq, Task.events_execAll]
  rfl

theorem ends_exec (trace : Bool) (store : Store) (program : Program) :
    Visit.Ends (program.exec trace store) (program.visits store) := by
  rw [exec_eq]
  exact Task.ends_execAll trace store program.tasks

theorem mem_visits_cons (store : Store) (s : Stmt) (others : List Stmt) :
    ⟨⟨none, s⟩, store⟩ ∈ visits store ⟨s :: others⟩ :=
  Task.mem_visits_head store ⟨none, s⟩ _

theorem statements_tasks (program : Program) :
    Task.statements program.tasks = program.statements := by
  rw [Task.statements, tasks, Task.map_statement, Program.statements]

theorem visits_sublist (store : Store) (program : Program) :
    ((program.visits store).map fun visit => visit.statement).Sublist program.statements :=
  program.statements_tasks ▸ Task.visits_sublist store program.tasks

theorem mem_statements_of_mem_visits {program : Program} {visit : Visit}
    (h : visit ∈ program.visits store) : visit.statement ∈ program.statements :=
  (program.visits_sublist store).mem (List.mem_map.2 ⟨visit, h, rfl⟩)

end Program

end Rech
