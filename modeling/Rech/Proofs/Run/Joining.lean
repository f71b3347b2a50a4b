import Rech.Run.Program

/-!
# Running statements in turn

A list of statements runs as its parts do, the later part on the store that the
earlier one leaves, unless that one returns or fails.
-/

namespace Rech

namespace Run

variable {run : Run Completion} {next : Store → Run Completion}

theorem andThen_of_normal (h : run.outcome = .ok .normal) :
    run.andThen next = (next run.store).after run.events := by
  rw [andThen, h]

theorem andThen_of_not_normal (h : run.outcome ≠ .ok .normal) : run.andThen next = run := by
  unfold andThen
  split
  next hnormal => exact absurd hnormal h
  next => rfl

theorem after_andThen (events : List Event) (run : Run Completion) :
    (run.after events).andThen next = (run.andThen next).after events := by
  unfold andThen
  simp only [after]
  split
  · rw [List.append_assoc]
  · rfl

theorem andThen_assoc (run : Run Completion) (next last : Store → Run Completion) :
    (run.andThen next).andThen last = run.andThen fun store => (next store).andThen last := by
  by_cases h : run.outcome = .ok .normal
  · rw [andThen_of_normal h, andThen_of_normal h, after_andThen]
  · rw [andThen_of_not_normal h, andThen_of_not_normal h, andThen_of_not_normal h]

theorem done_andThen (store : Store) : (done store .normal).andThen next = next store := by
  rw [andThen_of_normal rfl]
  rfl

end Run

theorem Stmt.execAll_append (trace : Bool) (store : Store) (body others : List Stmt) :
    Stmt.execAll trace store (body ++ others) =
      (Stmt.execAll trace store body).andThen fun next => Stmt.execAll trace next others := by
  induction body generalizing store with
  | nil => rw [List.nil_append, Stmt.execAll, Run.done_andThen]
  | cons s rest ih => simp only [List.cons_append, Stmt.execAll, ih, Run.andThen_assoc]

theorem Program.exec_append (trace : Bool) (store : Store) (program other : Program) :
    Program.exec trace store ⟨program.body ++ other.body⟩ =
      (program.exec trace store).andThen fun next => other.exec trace next :=
  Stmt.execAll_append trace store program.body other.body

end Rech
