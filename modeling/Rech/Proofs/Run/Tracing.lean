import Rech.Proofs.Run.Returning

/-!
# Tracing only observes

A traced run leaves the store and ends as the untraced run does. Its lines are
those of the untraced run with the announcements between them, and only an
announcement begins as one.
-/

namespace Rech

namespace Event

def isAnnouncement : Event → Bool
  | .executing .. => true
  | _ => false

theorem startsWith_text (event : Event) :
    event.text.startsWith "TRACE " = event.isAnnouncement := by
  cases event <;> simp [isAnnouncement]

theorem filter_text (events : List Event) :
    (events.map text).filter (!·.startsWith "TRACE ") =
      (events.filter (!·.isAnnouncement)).map text := by
  simp only [List.filter_map, Function.comp_def, startsWith_text]

end Event

namespace Run

def unannounced (run : Run α) : Run α where
  events := run.events.filter (!·.isAnnouncement)
  store := run.store
  outcome := run.outcome

theorem unannounced_after (events : List Event) (run : Run α) :
    (run.after events).unannounced =
      run.unannounced.after (events.filter (!·.isAnnouncement)) := by
  simp [unannounced, after]

theorem unannounced_of_printed {run : Run α}
    (h : ∀ event ∈ run.events, ∃ value, event = .printed value) : run.unannounced = run := by
  have hevents : run.events.filter (!·.isAnnouncement) = run.events := by
    refine List.filter_eq_self.2 fun event hmem => ?_
    obtain ⟨value, rfl⟩ := h event hmem
    rfl
  simp only [unannounced, hevents]

end Run

namespace Task

theorem unannounced_own (store : Store) (task : Task) :
    (task.own store).unannounced = task.own store :=
  Run.unannounced_of_printed (task.statement.events_own store)

/-- Every step of a traced run is that of the untraced run behind an announcement. -/
theorem unannounced_execAll (store : Store) (tasks : List Task) :
    (execAll true store tasks).unannounced = execAll false store tasks := by
  induction store, tasks using steps_induction with
  | nil store => rfl
  | stop store task others h =>
    simp only [execAll_cons, Run.andThen_of_not_normal h, Run.unannounced_after, unannounced_own]
    rfl
  | step store task others h ih =>
    have hown : (task.own store).events.filter (!·.isAnnouncement) = (task.own store).events :=
      congrArg Run.events (unannounced_own store task)
    simp only [execAll_cons, Run.andThen_of_normal h, Run.unannounced_after, ih, hown]
    rfl

end Task

namespace Program

theorem unannounced_exec (store : Store) (program : Program) :
    (program.exec true store).unannounced = program.exec false store := by
  rw [exec_eq, Task.unannounced_execAll, exec_eq]

theorem unannounced_run (program : Program) :
    (program.run true).unannounced = program.run false := by
  unfold Program.run
  rw [← unannounced_exec]
  cases h : (program.exec true ∅).outcome with
  | error error => simp [Run.unannounced, h, Event.isAnnouncement]
  | ok completion =>
    cases hvalue : completion.value? <;>
      simp [Run.unannounced, h, hvalue, Event.isAnnouncement]

end Program

theorem Tree.unannounced_run (tree : Tree) : (tree.run true).unannounced = tree.run false := by
  cases tree with
  | program whole => exact whole.unannounced_run
  | statement single => rfl

/-- What tracing may change: a traced run and an untraced one leave the same
store with the same outcome, and the lines that do not begin as announcements
are all the lines that the untraced run has. -/
structure Run.OnlyObserved (traced untraced : Run α) : Prop where
  store : traced.store = untraced.store
  outcome : traced.outcome = untraced.outcome
  lines : (traced.events.map Event.text).filter (!·.startsWith "TRACE ") =
    untraced.events.map Event.text
  silent : ∀ line ∈ untraced.events.map Event.text, line.startsWith "TRACE " = false

theorem Run.onlyObserved_unannounced (run : Run α) : run.OnlyObserved run.unannounced where
  store := rfl
  outcome := rfl
  lines := Event.filter_text run.events
  silent := by
    rw [List.forall_mem_map]
    intro event hmem
    rw [Event.startsWith_text]
    simpa using (List.mem_filter.1 hmem).2

/-- Tracing only observes, whether a program is executed on a store or a tree is
run between its marks. -/
theorem Program.exec_onlyObserved :
    (∀ (program : Program) (store : Store),
      Run.OnlyObserved (program.exec true store) (program.exec false store)) ∧
    ∀ tree : Tree, Run.OnlyObserved (tree.run true) (tree.run false) := by
  refine ⟨fun program store => ?_, fun tree => ?_⟩
  · exact program.unannounced_exec store ▸ Run.onlyObserved_unannounced _
  · exact tree.unannounced_run ▸ Run.onlyObserved_unannounced _

end Rech
