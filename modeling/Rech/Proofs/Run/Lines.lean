import Rech.Proofs.Tree.Lines
import Rech.Run.Program

/-!
# Lines and running

Without tracing, a run sees the lines of a tree in the line of its error only.
-/

namespace Rech

def Run.raise (lines : Int) (run : Run α) : Run α where
  events := run.events
  store := run.store
  outcome := run.outcome.mapError fun error => ⟨error.cause, raiseLine lines error.line⟩

namespace Run

variable {lines : Int}

theorem raise_given (store : Store) (result : Except EvalError.Cause α) (next : α → Run β) :
    (given store result next).raise lines = given store result fun a => (next a).raise lines := by
  cases result <;> rfl

theorem raise_after (events : List Event) (run : Run α) :
    (run.after events).raise lines = (run.raise lines).after events := rfl

theorem raise_located (line : Option Int) (run : Run α) :
    (run.located line).raise lines = (run.raise lines).located (raiseLine lines line) := by
  obtain ⟨events, store, outcome⟩ := run
  cases outcome with
  | ok a => rfl
  | error error =>
    obtain ⟨cause, own⟩ := error
    cases own <;> rfl

theorem raise_andThen (run : Run Completion) (next : Store → Run Completion) :
    (run.andThen next).raise lines =
      (run.raise lines).andThen fun store => (next store).raise lines := by
  obtain ⟨events, store, outcome⟩ := run
  rcases outcome with error | completion
  · rfl
  · cases completion <;> rfl

end Run

section
variable (lines : Int)

theorem Expr.eval_mapLine (store : Store) (e : Expr) (f : Option Int → Option Int) :
    (e.mapLine f).eval store = e.eval store := by
  induction e with
  | identifier | number | string | null | foreign => rfl
  | negate line operand ih => simp only [mapLine, eval, ih]
  | math line left operator right ihl ihr => simp only [mapLine, eval, ihl, ihr]
  | comparison line left operator right ihl ihr => simp only [mapLine, eval, ihl, ihr]

theorem Comparison.eval_mapLine (store : Store) (condition : Comparison)
    (f : Option Int → Option Int) : (condition.mapLine f).eval store = condition.eval store := by
  simp only [mapLine, eval, Expr.eval_mapLine]

theorem Assignment.exec_mapLine (store : Store) (assigned : Assignment) :
    (assigned.mapLine (raiseLine lines)).exec store = (assigned.exec store).raise lines := by
  simp only [exec, mapLine, Identifier.mapLine, Expr.eval_mapLine]
  split
  · rw [Run.raise_given]
    rfl
  · rfl

theorem Declaration.exec_mapLine (store : Store) (declared : Declaration) :
    (declared.mapLine (raiseLine lines)).exec store = (declared.exec store).raise lines := by
  simp only [exec, mapLine, Identifier.mapLine, Assignment.exec_mapLine]
  split <;> rfl

theorem Stmt.line_mapLine (s : Stmt) (f : Option Int → Option Int) :
    (s.mapLine f).line = f s.line := by
  cases s with
  | block inner => cases inner; rfl
  | choice first => cases first; rfl
  | expression value => cases value <;> rfl
  | _ => rfl

theorem Stmt.around_mapLine (s : Stmt) {run raised : Run Completion}
    (h : raised = run.raise lines) :
    (s.mapLine (raiseLine lines)).around false raised = (s.around false run).raise lines := by
  simp only [h, around, Stmt.line_mapLine, Run.raise_after, Run.raise_located, Bool.false_eq_true,
    if_false]

theorem Expr.print_mapLine (store : Store) (e : Expr) :
    (e.mapLine (raiseLine lines)).print store = (e.print store).raise lines := by
  rw [print, Expr.eval_mapLine, print, Run.raise_given]
  rfl

theorem Expr.return_mapLine (store : Store) (e : Option Expr) :
    Expr.return store (e.map (Expr.mapLine (raiseLine lines))) =
      (Expr.return store e).raise lines := by
  cases e with
  | none => rfl
  | some e =>
    rw [Option.map_some, Expr.return, Expr.eval_mapLine, Expr.return, Run.raise_given]
    rfl

theorem Expr.discard_mapLine (store : Store) (e : Expr) :
    (e.mapLine (raiseLine lines)).discard store = (e.discard store).raise lines := by
  rw [discard, Expr.eval_mapLine, discard, Run.raise_given]
  rfl

mutual
theorem Stmt.exec_mapLine (store : Store) : (s : Stmt) →
    (s.mapLine (raiseLine lines)).exec false store = (s.exec false store).raise lines
  | .block inner => Stmt.around_mapLine lines (.block inner) (Block.exec_mapLine store inner)
  | .choice first => Stmt.around_mapLine lines (.choice first) (Choice.exec_mapLine store first)
  | .print line value =>
    Stmt.around_mapLine lines (.print line value) (Expr.print_mapLine lines store value)
  | .return line value =>
    Stmt.around_mapLine lines (.return line value) (Expr.return_mapLine lines store value)
  | .declaration declared =>
    Stmt.around_mapLine lines (.declaration declared)
      (Declaration.exec_mapLine lines store declared)
  | .assignment assigned =>
    Stmt.around_mapLine lines (.assignment assigned) (Assignment.exec_mapLine lines store assigned)
  | .expression value =>
    Stmt.around_mapLine lines (.expression value) (Expr.discard_mapLine lines store value)

theorem Block.exec_mapLine (store : Store) : (b : Block) →
    (b.mapLine (raiseLine lines)).exec false store = (b.exec false store).raise lines
  | .mk _ body => Stmt.execAll_mapLines store body

theorem Choice.exec_mapLine (store : Store) : (c : Choice) →
    (c.mapLine (raiseLine lines)).exec false store = (c.exec false store).raise lines
  | .mk _ condition body otherwise => by
    simp only [Choice.mapLine, Choice.exec, Comparison.eval_mapLine]
    cases condition.eval store with
    | error cause => rfl
    | ok holds =>
      cases holds with
      | true => exact Block.exec_mapLine store body
      | false => exact Otherwise.exec_mapLine store otherwise

theorem Otherwise.exec_mapLine (store : Store) : (o : Otherwise) →
    (o.mapLine (raiseLine lines)).exec false store = (o.exec false store).raise lines
  | .nothing => rfl
  | .block chosen => Block.exec_mapLine store chosen
  | .choice chosen => Choice.exec_mapLine store chosen

theorem Stmt.execAll_mapLines (store : Store) : (body : List Stmt) →
    Stmt.execAll false store (Stmt.mapLines (raiseLine lines) body) =
      (Stmt.execAll false store body).raise lines
  | [] => rfl
  | s :: others => by
    simp only [Stmt.mapLines, Stmt.execAll, Run.raise_andThen, Stmt.exec_mapLine store s,
      Stmt.execAll_mapLines _ others]
end

theorem Program.exec_mapLine (store : Store) (program : Program) :
    (program.mapLine (raiseLine lines)).exec false store =
      (program.exec false store).raise lines :=
  Stmt.execAll_mapLines lines store program.body

end

end Rech
