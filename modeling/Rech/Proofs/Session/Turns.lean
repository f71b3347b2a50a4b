import Rech.Proofs.Run.Visits
import Rech.Session.Step

/-!
# Turns of a session

A session performs its steps in turn, each on the store that the one before it
leaves, whether that one failed or not. What a step does to the store it does
by what it reads its text as: a program is executed on the store, an expression
is evaluated in it, and any other text leaves it alone.
-/

namespace Rech

-- ---------------------------------------------------------------------------
-- Reports of what fails
-- ---------------------------------------------------------------------------

theorem Run.outcome_report_error {run : Run α} (h : run.outcome = .error error) :
    run.report.outcome = .error (.stopped error) := by
  rw [report, h]
  rfl

theorem Report.outcome_map_error {report : Report α} {failure : Failure}
    (h : report.outcome = .error failure) (f : α → β) :
    (report.map f).outcome = .error failure := by
  rw [map, h]
  rfl

theorem Expr.store_report (store : Store) (e : Expr) : (e.report store).store = store := by
  rw [report]
  cases e.eval store <;> rfl

theorem Expr.report_of_error (h : Expr.eval store e = .error cause) :
    e.report store = ⟨[], store, .error (.stopped ⟨cause, none⟩)⟩ := by
  rw [report, h]
  rfl

-- ---------------------------------------------------------------------------
-- One step
-- ---------------------------------------------------------------------------

namespace Step

/-- What a step reads its text as, to work with on the store of its session. A
program that is run has a store of its own. -/
def work? : Step → Option Snippet
  | .execute source => (Program.ofSource source).toOption.map .program
  | .snippet source => (Snippet.ofSource source).toOption
  | .evaluate source =>
    (Token.ofSource source >>= Parsing.expression.ofTokens).toOption.map .expression
  | .run _ => none

/-- What a step reports, by what it works with. -/
inductive Performs (trace : Bool) (store : Store) (report : Report StepResult) :
    Option Snippet → Prop
  | nothing (unchanged : report.store = store) : Performs trace store report none
  | program (left : report.store = (whole.exec trace store).store)
      (fails : ∀ error, (whole.exec trace store).outcome = .error error →
        report.outcome = .error (.stopped error)) :
      Performs trace store report (some (.program whole))
  | expression (unchanged : report.store = store)
      (fails : ∀ cause, value.eval store = .error cause →
        report = ⟨[], store, .error (.stopped ⟨cause, none⟩)⟩) :
      Performs trace store report (some (.expression value))

theorem performs (trace : Bool) (store : Store) (step : Step) :
    Performs trace store (step.perform trace store) step.work? := by
  cases step with
  | execute source =>
    rw [perform, work?]
    cases Program.ofSource source with
    | error error => exact .nothing rfl
    | ok program =>
      exact .program rfl fun error h => Report.outcome_map_error (Run.outcome_report_error h) _
  | snippet source =>
    rw [perform, work?]
    cases Snippet.ofSource source with
    | error error => exact .nothing rfl
    | ok whole =>
      cases whole with
      | program whole =>
        refine .program rfl fun error h => ?_
        have hreport : (whole.exec trace store).report.outcome = .error (.stopped error) :=
          Run.outcome_report_error h
        exact Report.outcome_map_error (Report.outcome_map_error hreport _) _
      | expression value =>
        refine .expression (value.store_report store) fun cause h => ?_
        dsimp only [Snippet.report]
        rw [Expr.report_of_error h]
        rfl
  | evaluate source =>
    rw [perform, work?]
    cases Token.ofSource source >>= Parsing.expression.ofTokens with
    | error error => exact .nothing rfl
    | ok value =>
      refine .expression (value.store_report store) fun cause h => ?_
      dsimp only
      rw [Expr.report_of_error h]
      rfl
  | run source =>
    rw [perform]
    cases Program.ofSource source with
    | error error => exact .nothing rfl
    | ok program => exact .nothing rfl

def visits (store : Store) (step : Step) : List Visit :=
  match step.work? with
  | some (.program whole) => whole.visits store
  | _ => []

theorem visits_execute (h : Program.ofSource source = .ok program) (store : Store) :
    (execute source).visits store = program.visits store := by
  rw [visits, work?, h]
  rfl

end Step

-- ---------------------------------------------------------------------------
-- All steps
-- ---------------------------------------------------------------------------

/-- A step of a session, and the store it finds. -/
structure Turn where
  step : Step
  store : Store

namespace Turn

def report (trace : Bool) (turn : Turn) : Report StepResult := turn.step.perform trace turn.store

def visits (turn : Turn) : List Visit := turn.step.visits turn.store

end Turn

namespace Step

def turns (trace : Bool) (store : Store) : List Step → List Turn
  | [] => []
  | step :: others => ⟨step, store⟩ :: turns trace (step.perform trace store).store others

def left (trace : Bool) (store : Store) : List Step → Store
  | [] => store
  | step :: others => left trace (step.perform trace store).store others

theorem map_report_turns (trace : Bool) (store : Store) (steps : List Step) :
    (turns trace store steps).map (Turn.report trace) = performAll trace store steps := by
  induction steps generalizing store with
  | nil => rfl
  | cons step others ih => rw [turns, List.map_cons, ih]; rfl

end Step

end Rech
