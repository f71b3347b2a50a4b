import Rech.Proofs.Run.Names

/-!
# What a failing run leaves

A statement begins at a moment of a run: something has been shown before, and
the statement finds a store. If a run fails, it is interrupted at one moment,
while one statement is executed and none inside of it. What was shown and
stored when that statement began is what the run leaves. Only a declaration of a
new name has already brought the name into the store.
-/

namespace Rech

-- ---------------------------------------------------------------------------
-- Moments
-- ---------------------------------------------------------------------------

/-- The beginning of a statement: what was shown before, and the store that the
statement finds. -/
structure Moment where
  events : List Event
  statement : Stmt
  store : Store

/-- What shows that a statement begins. -/
def Stmt.announcement (trace : Bool) (s : Stmt) : List Event :=
  if trace then [.executing s.line s.kindName] else []

namespace Moment

def exec (trace : Bool) (moment : Moment) : Run Completion :=
  moment.statement.exec trace moment.store

def behind (events : List Event) (moment : Moment) : Moment :=
  { moment with events := events ++ moment.events }

def Fails (trace : Bool) (moment : Moment) : Prop :=
  ∃ error, (moment.exec trace).outcome = .error error

end Moment

/-- The moments at which statements begin when a list of them is executed: the
first one begins at once, those that it opens behind its announcement, and the
others behind everything that it shows, if it passes. -/
inductive Stmt.Begins (trace : Bool) : Store → List Stmt → Moment → Prop
  | first : Begins trace store (s :: rest) ⟨[], s, store⟩
  | inside (opened : Begins trace store (s.opened store) moment) :
      Begins trace store (s :: rest) (moment.behind (s.announcement trace))
  | later (passed : (s.exec trace store).outcome = .ok .normal)
      (others : Begins trace (s.exec trace store).store rest moment) :
      Begins trace store (s :: rest) (moment.behind (s.exec trace store).events)

/-- The statement that is executed when a run fails, and no statement inside of
it is. -/
structure Stmt.Interrupted (trace : Bool) (store : Store) (body : List Stmt)
    (moment : Moment) : Prop where
  begins : Stmt.Begins trace store body moment
  fails : moment.Fails trace
  innermost : ∀ inner, Stmt.Begins trace moment.store (moment.statement.opened moment.store) inner →
    ¬inner.Fails trace

-- ---------------------------------------------------------------------------
-- What a statement does of its own when it fails
-- ---------------------------------------------------------------------------

theorem Run.exists_fail_of_given {store : Store} {result : Except EvalError.Cause α}
    {next : α → Run β} (passes : ∀ a, ∃ b, (next a).outcome = .ok b)
    (h : (given store result next).outcome = .error error) :
    ∃ cause, given store result next = fail store cause := by
  cases result with
  | error cause => exact ⟨cause, rfl⟩
  | ok a =>
    obtain ⟨b, hb⟩ := passes a
    exact nomatch hb.symm.trans h

theorem Assignment.exists_fail_of_exec {assigned : Assignment}
    (h : (assigned.exec store).outcome = .error error) :
    ∃ cause, assigned.exec store = .fail store cause := by
  rcases assigned.exec_cases store with ⟨-, hexec⟩ | ⟨-, ⟨cause, -, hexec⟩ | ⟨value, -, hexec⟩⟩
  · exact ⟨_, hexec⟩
  · exact ⟨cause, hexec⟩
  · cases hexec ▸ h

theorem Stmt.exists_fail_of_own {s : Stmt} (h : (s.own store).outcome = .error error) :
    ∃ cause, s.own store = .fail (s.ground store) cause := by
  cases s with
  | block inner => cases h
  | choice first => exact Run.exists_fail_of_given (fun _ => ⟨_, rfl⟩) h
  | print line value => exact Run.exists_fail_of_given (fun _ => ⟨_, rfl⟩) h
  | «return» line value =>
    cases value with
    | none => cases h
    | some value => exact Run.exists_fail_of_given (fun _ => ⟨_, rfl⟩) h
  | declaration declared =>
    rw [own, Declaration.exec] at h ⊢
    rw [ground]
    by_cases known : store.contains declared.identifier.symbol
    · simp only [known, if_true]
      exact ⟨_, rfl⟩
    · simp only [known, Bool.false_eq_true, if_false] at h ⊢
      exact Assignment.exists_fail_of_exec h
  | assignment assigned => exact Assignment.exists_fail_of_exec h
  | expression value => exact Run.exists_fail_of_given (fun _ => ⟨_, rfl⟩) h

theorem Stmt.own_of_opened {s : Stmt} (h : s.opened store ≠ []) :
    s.own store = .done store .normal := by
  cases s with
  | block inner => rfl
  | choice first =>
    rw [opened] at h
    rw [own]
    split at h
    next taken => rw [taken]; rfl
    next => exact absurd rfl h
  | _ => exact absurd rfl h

theorem Stmt.announcement_around (trace : Bool) (s : Stmt) (run : Run Completion) :
    s.around trace run = (run.located s.line).after (s.announcement trace) := rfl

-- ---------------------------------------------------------------------------
-- From a moment to the end of a run
-- ---------------------------------------------------------------------------

/-- A run fails as another one does, behind what was shown before. -/
structure Run.EndsAs (run ending : Run Completion) (shown : List Event) : Prop where
  fails : ∃ error, run.outcome = .error error
  events : run.events = shown ++ ending.events
  store : run.store = ending.store

namespace Run.EndsAs

variable {run ending : Run Completion}

theorem refl (fails : ∃ error, run.outcome = .error error) : run.EndsAs run [] :=
  ⟨fails, rfl, rfl⟩

theorem after (h : run.EndsAs ending shown) (earlier : List Event) :
    (run.after earlier).EndsAs ending (earlier ++ shown) :=
  ⟨h.fails, by simp [Run.after, h.events], h.store⟩

theorem located (h : run.EndsAs ending shown) (line : Option Int) :
    (run.located line).EndsAs ending shown := by
  obtain ⟨⟨error, herror⟩, hevents, hstore⟩ := h
  exact ⟨⟨_, by rw [Run.located, herror]; rfl⟩, hevents, hstore⟩

theorem andThen (h : run.EndsAs ending shown) (next : Store → Run Completion) :
    (run.andThen next).EndsAs ending shown := by
  obtain ⟨error, herror⟩ := h.fails
  rwa [andThen_of_not_normal (by simp [herror])]

end Run.EndsAs

namespace Stmt

theorem exec_of_opened {s : Stmt} (trace : Bool) (h : s.opened store ≠ []) :
    s.exec trace store =
      ((Stmt.execAll trace store (s.opened store)).located s.line).after
        (s.announcement trace) := by
  rw [exec_eq, own_of_opened h, Run.done_andThen, announcement_around]

theorem Begins.ne_nil (h : Begins trace store body moment) : body ≠ [] := by
  cases h <;> simp

theorem endsAs_of_opened {s : Stmt} {ending : Run Completion} (h : s.opened store ≠ [])
    (ends : (execAll trace store (s.opened store)).EndsAs ending shown) :
    (s.exec trace store).EndsAs ending (s.announcement trace ++ shown) := by
  rw [exec_of_opened trace h]
  exact (ends.located _).after _

theorem Begins.endsAs (h : Begins trace store body moment) (fails : moment.Fails trace) :
    (execAll trace store body).EndsAs (moment.exec trace) moment.events := by
  induction h with
  | first => exact (Run.EndsAs.refl fails).andThen _
  | inside opened ih => exact (endsAs_of_opened opened.ne_nil (ih fails)).andThen _
  | later passed _ ih =>
    rw [execAll, Run.andThen_of_normal passed]
    exact (ih fails).after _

theorem Begins.not_passed {s : Stmt} (h : Begins trace store (s.opened store) moment)
    (fails : moment.Fails trace) : (s.exec trace store).outcome ≠ .ok .normal := by
  obtain ⟨error, herror⟩ := (endsAs_of_opened h.ne_nil (h.endsAs fails)).fails
  simp [herror]

/-- A list of statements fails at one that begins. -/
theorem exists_begins (h : (execAll trace store body).outcome = .error error) :
    ∃ moment, Begins trace store body moment ∧ moment.Fails trace := by
  induction body generalizing store with
  | nil => cases h
  | cons s rest ih =>
    by_cases passed : (s.exec trace store).outcome = .ok .normal
    · rw [execAll, Run.andThen_of_normal passed] at h
      obtain ⟨moment, begins, fails⟩ := ih h
      exact ⟨_, .later passed begins, fails⟩
    · rw [execAll, Run.andThen_of_not_normal passed] at h
      exact ⟨_, .first, error, h⟩

theorem exec_error {s : Stmt} (h : (s.exec trace store).outcome = .error error) :
    (s.opened store = [] ∧ ∃ own, (s.own store).outcome = .error own) ∨
      ∃ inner, (execAll trace store (s.opened store)).outcome = .error inner := by
  rw [exec_eq, announcement_around] at h
  obtain ⟨error, h, -⟩ := Run.outcome_located_error h
  by_cases hopened : s.opened store = []
  · rw [hopened] at h
    simp only [execAll, Run.andThen_done] at h
    exact .inl ⟨hopened, error, h⟩
  · rw [own_of_opened hopened, Run.done_andThen] at h
    exact .inr ⟨error, h⟩

-- ---------------------------------------------------------------------------
-- The moment of a failure
-- ---------------------------------------------------------------------------

/-- The induction is on the number of statements, those inside of others included. -/
theorem exists_interrupted (h : (execAll trace store body).outcome = .error error) :
    ∃ moment, Interrupted trace store body moment := by
  induction hn : (allStatements body).length using Nat.strongRecOn
    generalizing store body error with
  | ind n ih =>
    cases body with
    | nil => cases h
    | cons s rest =>
      simp only [allStatements, List.length_cons, List.length_append] at hn
      by_cases passed : (s.exec trace store).outcome = .ok .normal
      · rw [execAll, Run.andThen_of_normal passed] at h
        obtain ⟨moment, begins, fails, innermost⟩ := ih _ (by omega) h rfl
        exact ⟨_, .later passed begins, fails, innermost⟩
      · rw [execAll, Run.andThen_of_not_normal passed] at h
        rcases exec_error h with ⟨hopened, -⟩ | ⟨inner, hinner⟩
        · refine ⟨⟨[], s, store⟩, .first, ⟨error, h⟩, ?_⟩
          rintro inner begins -
          exact begins.ne_nil hopened
        · have hle := (s.opened_sublist store).length_le
          obtain ⟨moment, begins, fails, innermost⟩ := ih _ (by omega) hinner rfl
          exact ⟨_, .inside begins, fails, innermost⟩

/-- There is one such moment only: of two that fail, the later one would have to
stand inside of the other. -/
theorem Interrupted.unique (h : Interrupted trace store body moment)
    (h' : Interrupted trace store body other) : other = moment := by
  obtain ⟨begins, fails, innermost⟩ := h
  induction begins generalizing other with
  | first =>
    obtain ⟨begins', fails', innermost'⟩ := h'
    obtain ⟨error, herror⟩ := fails
    cases begins' with
    | first => rfl
    | inside opened => exact (innermost _ opened fails').elim
    | later passed => exact nomatch herror.symm.trans passed
  | inside opened ih =>
    obtain ⟨begins', fails', innermost'⟩ := h'
    cases begins' with
    | first => exact (innermost' _ opened fails).elim
    | inside opened' => rw [ih ⟨opened', fails', innermost'⟩ fails innermost]
    | later passed => exact absurd passed (opened.not_passed fails)
  | later passed begins ih =>
    obtain ⟨begins', fails', innermost'⟩ := h'
    cases begins' with
    | first =>
      obtain ⟨error, herror⟩ := fails'
      exact nomatch herror.symm.trans passed
    | inside opened' => exact absurd passed (opened'.not_passed fails')
    | later _ others => rw [ih ⟨others, fails', innermost'⟩ fails innermost]

theorem Interrupted.exec_eq (h : Interrupted trace store body moment) :
    moment.statement.opened moment.store = [] ∧
      (moment.exec trace).events = moment.statement.announcement trace ∧
        (moment.exec trace).store = moment.statement.ground moment.store := by
  obtain ⟨error, herror⟩ := h.fails
  rcases exec_error herror with ⟨hopened, own, hown⟩ | ⟨inner, hinner⟩
  · obtain ⟨cause, hfail⟩ := exists_fail_of_own hown
    have hexec : moment.exec trace =
        ((Run.fail (moment.statement.ground moment.store) cause).located
          moment.statement.line).after (moment.statement.announcement trace) := by
      rw [Moment.exec, Stmt.exec_eq, hopened, announcement_around, hfail]
      rfl
    exact ⟨hopened, by simp [hexec, Run.after, Run.located, Run.fail], by rw [hexec]; rfl⟩
  · obtain ⟨moment, begins, fails⟩ := exists_begins hinner
    exact absurd fails (h.innermost _ begins)

theorem ground_of_fresh {s : Stmt} (h : s.declares? = some name) (fresh : name ∉ store) :
    s.ground store = store.insert name .unset := by
  cases s with
  | declaration declared =>
    obtain rfl : declared.identifier.symbol = name := Option.some.inj h
    simp [ground, fresh]
  | _ => cases h

theorem ground_of_known {s : Stmt} (h : ∀ name, s.declares? = some name → name ∈ store) :
    s.ground store = store := by
  cases s with
  | declaration declared => simpa [ground] using fun fresh => absurd (h _ rfl) fresh
  | _ => rfl

end Stmt

namespace Program

/-- A program that fails is interrupted in one statement, the innermost one that
is being executed. It leaves what was shown and the store as they were when that
statement began, but for the statement's announcement and, if it declares a name
that is not in the store, the name, which is unset. Nothing inside of the
statement begins. -/
theorem exec_interrupted (program : Program) (trace : Bool) (store : Store) (error : EvalError)
    (h : (program.exec trace store).outcome = .error error) :
    ∃ moment, Stmt.Interrupted trace store program.body moment ∧
      (∀ other, Stmt.Interrupted trace store program.body other → other = moment) ∧
      (program.exec trace store).events =
        moment.events ++ moment.statement.announcement trace ∧
      (∀ name, moment.statement.declares? = some name → name ∉ moment.store →
        (program.exec trace store).store = moment.store.insert name .unset) ∧
      ((∀ name, moment.statement.declares? = some name → name ∈ moment.store) →
        (program.exec trace store).store = moment.store) ∧
      moment.statement.opened moment.store = [] := by
  obtain ⟨moment, hinterrupted⟩ := Stmt.exists_interrupted h
  obtain ⟨hopened, hevents, hstore⟩ := hinterrupted.exec_eq
  have hends := hinterrupted.begins.endsAs hinterrupted.fails
  refine ⟨moment, hinterrupted, fun other hother => hinterrupted.unique hother, ?_, ?_, ?_,
    hopened⟩
  · rw [← hevents]
    exact hends.events
  · intro name hdeclares fresh
    rw [← Stmt.ground_of_fresh hdeclares fresh, ← hstore]
    exact hends.store
  · intro known
    rw [← Stmt.ground_of_known known]
    exact hends.store.trans hstore

/-- `пусть b = a;` in a block behind a print, with a print behind it. -/
theorem exec_interrupted_declaration :
    let b : Identifier := ⟨none, "b"⟩
    let failing : Stmt := .declaration ⟨none, b, ⟨none, b, .identifier ⟨none, "a"⟩⟩⟩
    let print : Stmt := .print none (.null none "ничто")
    let program : Program := ⟨[print, .block (.mk none [failing, print]), print]⟩
    let moment : Moment := ⟨[.executing none "PrintStatement", .printed .null,
      .executing none "BlockStatement"], failing, ∅⟩
    (program.exec true ∅).outcome = .error ⟨.unknownName "a", none⟩ ∧
      Stmt.Interrupted true ∅ program.body moment ∧
        (program.exec true ∅).events = moment.events ++ [.executing none "VarDeclaration"] ∧
          (program.exec true ∅).store = (∅ : Store).insert "b" .unset := by
  intro b failing print program moment
  have hreads : failing.Reads ∅ "a" :=
    ⟨_, by simp [failing, b, Stmt.evaluated, Assignment.evaluated]; rfl, .identifier⟩
  have hown : failing.own ∅ = .fail (failing.ground ∅) (.unknownName "a") :=
    Stmt.own_of_reads hreads (by simp [failing, b, Stmt.ground])
  have fails : (moment.exec true).outcome = .error ⟨.unknownName "a", none⟩ :=
    congrArg (fun run => (failing.around true run).outcome) hown
  have houtcome : (program.exec true ∅).outcome = .error ⟨.unknownName "a", none⟩ := by
    have hvisit : ⟨⟨none, failing⟩, ∅⟩ ∈ Task.visits ∅
        [⟨none, .block (.mk none [failing, print])⟩, ⟨none, print⟩] :=
      Task.mem_visits_of_normal rfl (Task.mem_visits_head ∅ ⟨none, failing⟩ _)
    have hmem : ⟨⟨none, failing⟩, ∅⟩ ∈ program.visits ∅ := Task.mem_visits_of_normal rfl hvisit
    obtain ⟨-, -, -, houtcome⟩ := ends_of_fail true hmem hown
    exact houtcome
  have inner : Stmt.Begins true ∅ ((Stmt.block (.mk none [failing, print])).opened ∅)
      ⟨[], failing, ∅⟩ := .first
  have passed : (print.exec true ∅).outcome = .ok .normal := rfl
  have begins : Stmt.Begins true ∅ program.body moment :=
    (Stmt.Begins.later passed (.inside inner) :)
  have hmoment : Stmt.Interrupted true ∅ program.body moment :=
    ⟨begins, ⟨_, fails⟩, fun _ inner => absurd rfl inner.ne_nil⟩
  obtain ⟨found, -, hunique, hevents, hfresh, -⟩ := exec_interrupted program true ∅ _ houtcome
  obtain rfl := hunique moment hmoment
  exact ⟨houtcome, hmoment, hevents, hfresh "b" rfl (by simp [moment])⟩

end Program

end Rech
