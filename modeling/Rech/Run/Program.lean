import Rech.Run.Statement

/-!
# Running programs

Running a program executes it on an empty store between a start and an end
mark, and reports the value it returns. A program that fails has no end mark.
-/

namespace Rech

def Completion.value? : Completion → Option Value
  | .normal => none
  | .returned value => value

def Program.exec (trace : Bool) (store : Store) (program : Program) : Run Completion :=
  Stmt.execAll trace store program.body

def Program.run (trace : Bool) (program : Program) : Run (Option Value) :=
  let execution := program.exec trace ∅
  match execution.outcome with
  | .ok completion =>
    { events := .started :: execution.events ++
        .finished :: (completion.value?.map Event.result).toList
      store := execution.store
      outcome := .ok completion.value? }
  | .error error => ⟨.started :: execution.events, execution.store, .error error⟩

/-- A tree made by hand may be no program. -/
inductive Tree where
  | program (whole : Program)
  | statement (single : Stmt)

def Tree.run (trace : Bool) : Tree → Run (Option Value)
  | .program whole => whole.run trace
  | .statement _ => .fail ∅ .notAProgram

end Rech
