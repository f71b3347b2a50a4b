import Rech.Parsing.Statement
import Rech.Run.Program

/-!
# Reports

What one source text does in a session: the lines it prints, the store it
leaves and its outcome. A text that cannot be read prints nothing and leaves
the store as it was.
-/

namespace Rech

structure Report (α : Type) where
  lines : List String
  store : Store
  outcome : Except Failure α

namespace Report

def unreadable (store : Store) (error : SyntaxError) : Report α :=
  ⟨[], store, .error (.unreadable error)⟩

def map (f : α → β) (report : Report α) : Report β where
  lines := report.lines
  store := report.store
  outcome := report.outcome.map f

/-- Prints a line more if the outcome calls for one. -/
def telling (line? : α → Option String) (report : Report α) : Report α where
  lines := report.lines ++
    match report.outcome with
    | .ok a => (line? a).toList
    | .error _ => []
  store := report.store
  outcome := report.outcome

def printed (report : Report α) : String :=
  String.join (report.lines.map (· ++ "\n"))

end Report

def Run.report (run : Run α) : Report α :=
  ⟨run.events.map Event.text, run.store, run.outcome.mapError Failure.stopped⟩

/-- An expression outside of any statement, whose errors have no line. -/
def Expr.report (store : Store) (expr : Expr) : Report Value :=
  (Run.given store (expr.eval store) (Run.done store)).report

end Rech
