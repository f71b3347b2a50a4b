import Rech.Proofs.Run.Visits

/-!
# The first return ends a run

A return never passes, so it is the last statement a run executes, and no other
statement returns. A program run between its marks writes what its statements
write and tells the returned value behind the end mark.
-/

namespace Rech

/-- What a return gives: nothing if it has no expression or an unset value. -/
inductive Expr.Returns (store : Store) : Option Expr → Option Value → Prop
  | nothing : Returns store none none
  | unset (evaluates : Expr.eval store e = .ok .unset) : Returns store (some e) none
  | value (evaluates : Expr.eval store e = .ok value) (set : value ≠ .unset) :
      Returns store (some e) (some value)

theorem Run.outcome_given_ok {store : Store} {result : Except EvalError.Cause α}
    {next : α → Run β} {b : β} : (given store result next).outcome = .ok b ↔
      ∃ a, result = .ok a ∧ (next a).outcome = .ok b := by
  cases result <;> simp [given, fail]

theorem Expr.outcome_return :
    (Expr.return store e).outcome = .ok completion ↔
      ∃ value, completion = .returned value ∧ Returns store e value := by
  cases e with
  | none =>
    constructor
    · rintro ⟨⟩
      exact ⟨none, rfl, .nothing⟩
    · rintro ⟨value, rfl, ⟨⟩⟩
      rfl
  | some e =>
    simp only [Expr.return, Run.outcome_given_ok, Run.done]
    constructor
    · rintro ⟨value, h, ⟨⟩⟩
      by_cases hv : value = .unset
      · subst hv
        exact ⟨none, rfl, .unset h⟩
      · exact ⟨some value, by simp [Completion.ofReturned, hv], .value h hv⟩
    · rintro ⟨value, rfl, hreturns⟩
      cases hreturns with
      | unset h => exact ⟨_, h, rfl⟩
      | value h set => exact ⟨_, h, by simp [Completion.ofReturned, set]⟩

theorem Assignment.outcome_exec {assigned : Assignment}
    (h : (assigned.exec store).outcome = .ok completion) : completion = .normal := by
  rcases assigned.exec_cases store with ⟨-, hexec⟩ | ⟨-, ⟨cause, -, hexec⟩ | ⟨value, -, hexec⟩⟩
  · cases hexec ▸ h
  · cases hexec ▸ h
  · rw [hexec] at h
    exact (Except.ok.inj h).symm

theorem Stmt.outcome_own {s : Stmt} (h : (s.own store).outcome = .ok completion) :
    completion = .normal ∧ s.kindName ≠ "ReturnStatement" ∨
      ∃ line e value, s = .return line e ∧ completion = .returned value ∧
        Expr.Returns store e value := by
  cases s with
  | «return» line e =>
    obtain ⟨value, rfl, hreturns⟩ := Expr.outcome_return.1 h
    exact .inr ⟨line, e, value, rfl, rfl, hreturns⟩
  | block inner => exact .inl ⟨(Except.ok.inj h).symm, by simp [kindName]⟩
  | choice first =>
    obtain ⟨body, -, h⟩ := Run.outcome_given_ok.1 h
    exact .inl ⟨(Except.ok.inj h).symm, by simp [kindName]⟩
  | print line e =>
    obtain ⟨value, -, h⟩ := Run.outcome_given_ok.1 h
    exact .inl ⟨(Except.ok.inj h).symm, by simp [kindName]⟩
  | declaration declared =>
    refine .inl ⟨?_, by simp [kindName]⟩
    rw [Stmt.own, Declaration.exec] at h
    split at h
    · cases h
    · exact Assignment.outcome_exec h
  | assignment assigned => exact .inl ⟨Assignment.outcome_exec h, by simp [kindName]⟩
  | expression e =>
    obtain ⟨value, heval, h⟩ := Run.outcome_given_ok.1 h
    refine .inl ⟨(Except.ok.inj h).symm, ?_⟩
    -- A node of another kind may bear the name of a return, but has no value.
    cases e with
    | foreign => cases heval
    | _ => simp [kindName, Expr.kindName]

theorem Visit.Passed.kindName_ne {visit : Visit} (h : visit.Passed) :
    visit.statement.kindName ≠ "ReturnStatement" := by
  have hown := (Run.outcome_located_ok _).1 h
  rcases Stmt.outcome_own hown with ⟨-, hkind⟩ | ⟨line, e, value, -, ⟨⟩, -⟩
  exact hkind

-- ---------------------------------------------------------------------------
-- Events
-- ---------------------------------------------------------------------------

/-- The line and the kind of the statement that an event announces. -/
def Event.announced? : Event → Option (Option Int × String)
  | .executing line kind => some (line, kind)
  | _ => none

theorem Run.events_given {store : Store} {result : Except EvalError.Cause α}
    {next : α → Run β} (h : ∀ a, (next a).events = []) :
    (given store result next).events = [] := by
  cases result with
  | error cause => rfl
  | ok a => exact h a

theorem Assignment.events_exec (store : Store) (assigned : Assignment) :
    (assigned.exec store).events = [] := by
  rcases assigned.exec_cases store with ⟨-, h⟩ | ⟨-, ⟨cause, -, h⟩ | ⟨value, -, h⟩⟩ <;>
    rw [h] <;> rfl

theorem Stmt.events_own_cases (store : Store) (s : Stmt) :
    (s.own store).events = [] ∨
      ∃ line e value, s = .print line e ∧ (s.own store).events = [.printed value] := by
  cases s with
  | block inner => exact .inl rfl
  | choice first => exact .inl (Run.events_given fun _ => rfl)
  | print line e =>
    rw [Stmt.own, Expr.print]
    cases e.eval store with
    | error cause => exact .inl rfl
    | ok value => exact .inr ⟨line, e, value, rfl, rfl⟩
  | «return» line e =>
    cases e with
    | none => exact .inl rfl
    | some e => exact .inl (Run.events_given fun _ => rfl)
  | declaration declared =>
    refine .inl ?_
    rw [Stmt.own, Declaration.exec]
    split
    · rfl
    · exact Assignment.events_exec _ _
  | assignment assigned => exact .inl (Assignment.events_exec _ _)
  | expression e => exact .inl (Run.events_given fun _ => rfl)

theorem Stmt.events_own (store : Store) (s : Stmt) :
    ∀ event ∈ (s.own store).events, ∃ value, event = .printed value := by
  rcases s.events_own_cases store with h | ⟨line, e, value, -, h⟩ <;> simp [h]

theorem Visit.announced_events (visit : Visit) :
    (visit.events true).filterMap Event.announced? =
      [(visit.statement.line, visit.statement.kindName)] := by
  have hown : visit.own.events.filterMap Event.announced? = [] := by
    refine List.filterMap_eq_nil_iff.2 fun event hmem => ?_
    obtain ⟨value, rfl⟩ := Stmt.events_own _ _ event hmem
    rfl
  rw [events, List.filterMap_append, hown]
  rfl

theorem Program.announced_exec (store : Store) (program : Program) :
    (program.exec true store).events.filterMap Event.announced? =
      (program.visits store).map fun visit =>
        (visit.statement.line, visit.statement.kindName) := by
  rw [Program.events_exec, List.filterMap_flatMap]
  induction program.visits store with
  | nil => rfl
  | cons visit visits ih => rw [List.flatMap_cons, Visit.announced_events, ih]; rfl

/-- An announcement or something printed. -/
def Event.IsStep (event : Event) : Prop :=
  (∃ line kind, event = .executing line kind) ∨ ∃ value, event = .printed value

theorem Program.isStep_exec (trace : Bool) (store : Store) (program : Program) :
    ∀ event ∈ (program.exec trace store).events, event.IsStep := by
  intro event hmem
  rw [Program.events_exec] at hmem
  obtain ⟨visit, -, hmem⟩ := List.mem_flatMap.1 hmem
  rcases List.mem_append.1 hmem with hmem | hmem
  · rw [Task.announcement] at hmem
    split at hmem
    · exact .inl ⟨_, _, List.mem_singleton.1 hmem⟩
    · cases hmem
  · exact .inr (Stmt.events_own _ _ event hmem)

-- ---------------------------------------------------------------------------
-- Programs
-- ---------------------------------------------------------------------------

theorem Program.exists_return {program : Program} {store : Store} {value : Option Value}
    (h : (program.exec trace store).outcome = .ok (.returned value)) :
    ∃ earlier last line e, program.visits store = earlier ++ [last] ∧
      (∀ visit ∈ earlier, visit.statement.kindName ≠ "ReturnStatement") ∧
        last.statement = .return line e ∧ Expr.Returns last.store e value := by
  have hends := program.ends_exec trace store
  generalize program.visits store = visits at hends
  cases hends with
  | normal passed outcome => cases h.symm.trans outcome
  | @stopped earlier last passed stops outcome _ =>
    have hown := (Run.outcome_located_ok _).1 (outcome.symm.trans h)
    rcases Stmt.outcome_own hown with ⟨⟨⟩, -⟩ | ⟨line, e, returned, hlast, ⟨⟩, hreturns⟩
    refine ⟨earlier, last, line, e, rfl, ?_, hlast, hreturns⟩
    exact fun visit hmem => (passed visit hmem).kindName_ne

theorem Program.no_return {program : Program} {store : Store}
    (h : (program.exec trace store).outcome = .ok .normal) :
    ∀ visit ∈ program.visits store, visit.statement.kindName ≠ "ReturnStatement" := by
  have hends := program.ends_exec trace store
  generalize program.visits store = visits at hends
  cases hends with
  | normal passed _ => exact fun visit hmem => (passed visit hmem).kindName_ne
  | stopped _ stops outcome _ => exact absurd (outcome.symm.trans h) stops

namespace Event

@[simp] theorem text_started : started.text = "Старт программы..." := rfl

@[simp] theorem text_executing (line : Option Int) (kind : String) :
    (executing line kind).text =
      "TRACE line=" ++ (Text.numberOrNone line ++ (" " ++ kind)) := by
  unfold text
  simp only [toString, String.append_assoc]

@[simp] theorem text_printed (value : Value) :
    (printed value).text = "вывод: " ++ value.display := rfl

@[simp] theorem text_finished : finished.text = "Программа завершена!" := rfl

@[simp] theorem text_result (value : Value) :
    (result value).text = "Результат: " ++ value.display := rfl

def IsStepLine (line : String) : Prop :=
  (∃ rest, line = "TRACE line=" ++ rest) ∨ ∃ rest, line = "вывод: " ++ rest

theorem IsStep.isStepLine {event : Event} (h : event.IsStep) : IsStepLine event.text := by
  rcases h with ⟨line, kind, rfl⟩ | ⟨value, rfl⟩
  · exact .inl ⟨_, text_executing line kind⟩
  · exact .inr ⟨_, text_printed value⟩

end Event

/-- What is told behind the last step of a program. -/
def Program.closing : Except EvalError (Option Value) → List String
  | .error _ => []
  | .ok none => ["Программа завершена!"]
  | .ok (some value) => ["Программа завершена!", "Результат: " ++ value.display]

theorem Program.lines_run (trace : Bool) (program : Program) :
    ∃ steps, (∀ line ∈ steps, Event.IsStepLine line) ∧
      (program.run trace).events.map Event.text =
        "Старт программы..." :: (steps ++ closing (program.run trace).outcome) := by
  refine ⟨(program.exec trace ∅).events.map Event.text, ?_, ?_⟩
  · intro line hmem
    obtain ⟨event, hevent, rfl⟩ := List.mem_map.1 hmem
    exact (program.isStep_exec trace ∅ event hevent).isStepLine
  · cases h : (program.exec trace ∅).outcome with
    | error error => simp [Program.run, h, closing]
    | ok completion =>
      cases hvalue : completion.value? <;> simp [Program.run, h, hvalue, closing]

theorem Program.outcome_run (trace : Bool) (program : Program) :
    (program.run trace).outcome = (program.exec trace ∅).outcome.map Completion.value? := by
  unfold Program.run
  cases h : (program.exec trace ∅).outcome <;> simp [h, Except.map]

/-- A run that returns has executed one return, as its last statement, and gives
its value. A run that ends normally has executed none. A program that is run
between its marks tells its steps between them, and then the value. -/
theorem Program.exec_returning (program : Program) (store : Store) (trace : Bool) :
    ((program.exec true store).events.filterMap Event.announced? =
      (program.visits store).map fun visit =>
        (visit.statement.line, visit.statement.kindName)) ∧
    (∀ value, (program.exec trace store).outcome = .ok (.returned value) →
      ∃ earlier last line e, program.visits store = earlier ++ [last] ∧
        (∀ visit ∈ earlier, visit.statement.kindName ≠ "ReturnStatement") ∧
          last.statement = .return line e ∧ Expr.Returns last.store e value) ∧
    ((program.exec trace store).outcome = .ok .normal →
      ∀ visit ∈ program.visits store, visit.statement.kindName ≠ "ReturnStatement") ∧
    (∃ steps, (∀ line ∈ steps, Event.IsStepLine line) ∧
      (program.run trace).events.map Event.text =
        "Старт программы..." :: (steps ++ closing (program.run trace).outcome)) ∧
    (program.run trace).outcome = (program.exec trace ∅).outcome.map Completion.value? := by
  refine ⟨program.announced_exec store, ?_, ?_, program.lines_run trace,
    program.outcome_run trace⟩
  · intro value h
    exact exists_return h
  · intro h
    exact no_return h

/-- `если (0 == 0) { { вернуть x; } } напечатать ничто;`, without lines. -/
def Program.sampleReturning : Program where
  body := [
    .choice (.mk none ⟨none, .number none (.zero false), "==", .number none (.zero true)⟩
      (.mk none [.block (.mk none [.return none (some (.identifier ⟨none, "x"⟩))])]) .nothing),
    .print none (.null none "ничто")]

/-- A return of an unset name two blocks deep, and what stands behind it run by
itself. -/
theorem Program.exec_returning_sample :
    let store : Store := (∅ : Store).insert "x" .unset
    let behind : Program := ⟨sampleReturning.body.drop 1⟩
    ((sampleReturning.exec false store).outcome = .ok (.returned none) ∧
      ∃ earlier last line e, sampleReturning.visits store = earlier ++ [last] ∧
        (∀ visit ∈ earlier, visit.statement.kindName ≠ "ReturnStatement") ∧
          last.statement = .return line e ∧ Expr.Returns last.store e none) ∧
    ((behind.exec false store).outcome = .ok .normal ∧
      ∀ visit ∈ behind.visits store, visit.statement.kindName ≠ "ReturnStatement") := by
  intro store behind
  have hreturned : (sampleReturning.exec false store).outcome = .ok (.returned none) := rfl
  have hnormal : (behind.exec false store).outcome = .ok .normal := rfl
  obtain ⟨-, returned, -⟩ := exec_returning sampleReturning store false
  obtain ⟨-, -, normal, -⟩ := exec_returning behind store false
  exact ⟨⟨hreturned, returned none hreturned⟩, hnormal, normal hnormal⟩

end Rech
