import Rech.Proofs.Grammar.Order
import Rech.Proofs.Run.Tracing

/-!
# Statements are executed in the order of the text

The statements that a run executes are a course through the program: each one
at most once, in the order of the text, and those of one branch of a choice
only. So nothing is printed more often than it is asked for in the text, and
the lines that a trace announces never decrease.
-/

namespace Rech

-- ---------------------------------------------------------------------------
-- What a run shows
-- ---------------------------------------------------------------------------

def Stmt.isPrint : Stmt → Bool
  | .print .. => true
  | _ => false

namespace Event

def isPrinted : Event → Bool
  | .printed _ => true
  | _ => false

theorem startsWith_text_printed (event : Event) :
    event.text.startsWith "вывод:" = event.isPrinted := by
  cases event <;> simp [isPrinted]

theorem filter_isAnnouncement (events : List Event) :
    events.filter isAnnouncement =
      (events.filterMap announced?).map fun announced => .executing announced.1 announced.2 := by
  induction events with
  | nil => rfl
  | cons event events ih =>
    cases event <;>
      simp [isAnnouncement, announced?, List.filter_cons, List.filterMap_cons, ih]

end Event

theorem Visit.countP_isPrinted_le (trace : Bool) (visit : Visit) :
    (visit.events trace).countP Event.isPrinted ≤ if visit.statement.isPrint then 1 else 0 := by
  have hannounced : (visit.announcement trace).countP Event.isPrinted = 0 := by
    cases trace <;> rfl
  rw [events, List.countP_append, hannounced, Nat.zero_add]
  show (visit.statement.own visit.store).events.countP _ ≤ _
  rcases visit.statement.events_own_cases visit.store with h | ⟨line, e, value, hs, h⟩
  · simp [h]
  · rw [h, hs]
    exact Nat.le_refl _

theorem Visit.countP_isPrinted_flatMap_le (trace : Bool) (visits : List Visit) :
    (visits.flatMap (events trace)).countP Event.isPrinted ≤
      (visits.map fun visit => visit.statement).countP Stmt.isPrint := by
  induction visits with
  | nil => exact Nat.le_refl _
  | cons visit visits ih =>
    rw [List.flatMap_cons, List.countP_append, List.map_cons, List.countP_cons, Nat.add_comm]
    exact Nat.add_le_add ih (visit.countP_isPrinted_le trace)

namespace Program

def executed (store : Store) (program : Program) : List Stmt :=
  (program.visits store).map fun visit => visit.statement

theorem course_executed (store : Store) (program : Program) :
    Stmt.Course program.body (program.executed store) := by
  have h := Task.course_visits store program.tasks
  rwa [tasks, Task.map_statement] at h

theorem executed_sublist (store : Store) (program : Program) :
    (program.executed store).Sublist program.statements :=
  program.visits_sublist store

theorem announcements_exec (store : Store) (program : Program) :
    ((program.exec true store).events.map Event.text).filter (·.startsWith "TRACE ") =
      (program.executed store).map fun s => (Event.executing s.line s.kindName).text := by
  simp only [List.filter_map, Function.comp_def, Event.startsWith_text,
    Event.filter_isAnnouncement, announced_exec, executed, List.map_map]

theorem countP_printed_exec_le (trace : Bool) (store : Store) (program : Program) :
    ((program.exec trace store).events.map Event.text).countP (·.startsWith "вывод:") ≤
      program.statements.countP Stmt.isPrint := by
  simp only [List.countP_map, Function.comp_def, Event.startsWith_text_printed, events_exec]
  exact (Visit.countP_isPrinted_flatMap_le trace _).trans
    (program.executed_sublist store).countP_le

theorem exists_numbers_executed {source : List Char} {program : Program}
    (h : Program.ofSource source = .ok program) (store : Store) : ∃ numbers : List Int,
      (program.executed store).map Stmt.line = numbers.map some ∧ numbers.Pairwise (· ≤ ·) := by
  obtain ⟨numbers, hnumbers, hsorted⟩ := exists_numbers_ofSource h
  have hlines := (program.executed_sublist store).map Stmt.line
  rw [hnumbers] at hlines
  obtain ⟨shown, hshown, hexecuted⟩ := List.sublist_map_iff.1 hlines
  exact ⟨shown, hexecuted, hsorted.sublist hshown⟩

/-- The statements that a run announces come in the order of the text, each at
most once, and follow a course, which goes through one branch of a choice only.
No more is printed than there are prints in the text. In a program that is read
from a text, the announced lines never decrease. -/
theorem executed_in_order :
    (∀ (program : Program) (store : Store),
      ((program.exec true store).events.map Event.text).filter (·.startsWith "TRACE ") =
        (program.executed store).map (fun s => (Event.executing s.line s.kindName).text) ∧
      (program.executed store).Sublist program.statements ∧
      Stmt.Course program.body (program.executed store) ∧
      ∀ trace, ((program.exec trace store).events.map Event.text).countP
        (·.startsWith "вывод:") ≤ program.statements.countP Stmt.isPrint) ∧
    ∀ source program, Program.ofSource source = .ok program → ∀ store, ∃ numbers : List Int,
      (program.executed store).map Stmt.line = numbers.map some ∧
        numbers.Pairwise (· ≤ ·) := by
  refine ⟨fun program store => ⟨?_, ?_, ?_, ?_⟩, fun source program h store => ?_⟩
  · exact program.announcements_exec store
  · exact program.executed_sublist store
  · exact program.course_executed store
  · intro trace
    exact program.countP_printed_exec_le trace store
  · exact exists_numbers_executed h store

/-- An expression stands at its sign, below its first token. -/
theorem executed_in_order_sign :
    ∃ program, Program.ofSource "1\n- 2; напечатать 3;".toList = .ok program ∧
      program.statements.map Stmt.line = [some 2, some 2] ∧
      ∃ numbers : List Int, (program.executed ∅).map Stmt.line = numbers.map some ∧
        numbers.Pairwise (· ≤ ·) := by
  have htokens : Token.ofSource "1\n- 2; напечатать 3;".toList =
      .ok [⟨.number, "1", ⟨1, 1⟩⟩, ⟨.math, "-", ⟨2, 1⟩⟩, ⟨.number, "2", ⟨2, 3⟩⟩,
        ⟨.semicolon, ";", ⟨2, 4⟩⟩, ⟨.printWord, "напечатать", ⟨2, 6⟩⟩, ⟨.number, "3", ⟨2, 17⟩⟩,
        ⟨.semicolon, ";", ⟨2, 18⟩⟩, ⟨.endOfFile, "\x00", ⟨2, 19⟩⟩] := by
    decide +kernel
  have h := (Program.ofSource_of_tokens htokens).trans rfl
  obtain ⟨-, numbered⟩ := executed_in_order
  exact ⟨_, h, rfl, numbered _ _ h ∅⟩

end Program

end Rech
