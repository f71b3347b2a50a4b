import Rech.Proofs.Grammar.Joining
import Rech.Proofs.Run.Joining
import Rech.Proofs.Run.Lines
import Rech.Session.Step

/-!
# Feeding a program in pieces

Executing two texts in turn on one store is executing them as one text with a
newline between them. Only the lines of the errors of the later text differ,
by the number of lines that the earlier one takes.
-/

namespace Rech

def Failure.raise (lines : Int) : Failure → Failure
  | .unreadable error => .unreadable error
  | .stopped error => .stopped ⟨error.cause, raiseLine lines error.line⟩

/-- What a text does as a whole, by what its two parts do in turn. -/
structure Report.Joins (raised : Int) (first second whole : Report StepResult) : Prop where
  stopped : first.outcome ≠ .ok (.completed .normal) → whole = first
  lines : first.outcome = .ok (.completed .normal) → whole.lines = first.lines ++ second.lines
  store : first.outcome = .ok (.completed .normal) → whole.store = second.store
  outcome : first.outcome = .ok (.completed .normal) →
    whole.outcome = second.outcome.mapError (Failure.raise raised)

theorem Step.perform_execute {source : List Char} {program : Program}
    (h : Program.ofSource source = .ok program) (store : Store) :
    perform trace store (.execute source) = (program.exec trace store).report.map .completed := by
  simp only [perform, h]

theorem Run.outcome_report_iff {run : Run Completion} {completion : Completion} :
    (run.report.map StepResult.completed).outcome = .ok (.completed completion) ↔
      run.outcome = .ok completion := by
  obtain ⟨events, store, outcome⟩ := run
  cases outcome <;> simp [report, Report.map, Except.mapError, Except.map]

theorem Run.report_raise (run : Run Completion) (lines : Int) :
    ((run.raise lines).report.map StepResult.completed).outcome =
      (run.report.map StepResult.completed).outcome.mapError (Failure.raise lines) := by
  obtain ⟨events, store, outcome⟩ := run
  cases outcome <;> rfl

theorem Run.joins_report (run : Run Completion) (next : Store → Run Completion) (lines : Int) :
    Report.Joins lines (run.report.map .completed) ((next run.store).report.map .completed)
      ((run.andThen fun store => (next store).raise lines).report.map .completed) := by
  by_cases h : run.outcome = .ok .normal
  · rw [andThen_of_normal h]
    refine ⟨fun hstopped => absurd (outcome_report_iff.2 h) hstopped, ?_, ?_, ?_⟩
    · rintro -
      exact List.map_append
    · rintro -
      rfl
    · rintro -
      exact report_raise (next run.store) lines
  · rw [andThen_of_not_normal h]
    have hstopped := mt outcome_report_iff.1 h
    exact ⟨fun _ => rfl, fun hnormal => absurd hnormal hstopped,
      fun hnormal => absurd hnormal hstopped, fun hnormal => absurd hnormal hstopped⟩

/-- Texts that are programs are one with a newline between them, and executing it
does what executing the texts in turn on one store does. -/
theorem Step.perform_join {source more : List Char} {program other : Program}
    (h : Program.ofSource source = .ok program) (h' : Program.ofSource more = .ok other) :
    Program.ofSource (source ++ '\n' :: more) =
        .ok ⟨program.body ++ (other.mapLine (raiseLine (Place.linesOf source))).body⟩ ∧
      ∀ store, Report.Joins (Place.linesOf source) (perform false store (.execute source))
        (perform false (perform false store (.execute source)).store (.execute more))
        (perform false store (.execute (source ++ '\n' :: more))) := by
  have hwhole := Program.ofSource_join h h'
  refine ⟨hwhole, fun store => ?_⟩
  rw [perform_execute h, perform_execute h', perform_execute hwhole]
  have := Run.joins_report (program.exec false store) (other.exec false) (Place.linesOf source)
  simp only [← Program.exec_mapLine] at this
  rw [Program.exec_append]
  exact this

/-- A comment at the seam, and an error behind it. -/
theorem Step.perform_join_comment :
    let source := "пусть a = \"\"; // b".toList
    let more := "\nb;".toList
    ∃ program other, Program.ofSource source = .ok program ∧ Program.ofSource more = .ok other ∧
      Program.ofSource (source ++ '\n' :: more) =
        .ok ⟨program.body ++ (other.mapLine (raiseLine 1)).body⟩ ∧
      Report.Joins 1 (perform false ∅ (.execute source))
        (perform false (perform false ∅ (.execute source)).store (.execute more))
        (perform false ∅ (.execute (source ++ '\n' :: more))) := by
  have hsource : Token.ofSource "пусть a = \"\"; // b".toList =
      .ok [⟨.letWord, "пусть", ⟨1, 1⟩⟩, ⟨.identifier, "a", ⟨1, 7⟩⟩, ⟨.assign, "=", ⟨1, 9⟩⟩,
        ⟨.string, "", ⟨1, 11⟩⟩, ⟨.semicolon, ";", ⟨1, 13⟩⟩, ⟨.endOfFile, "\x00", ⟨1, 19⟩⟩] := by
    decide +kernel
  have hmore : Token.ofSource "\nb;".toList = .ok [⟨.identifier, "b", ⟨2, 1⟩⟩,
      ⟨.semicolon, ";", ⟨2, 2⟩⟩, ⟨.endOfFile, "\x00", ⟨2, 3⟩⟩] := by
    decide +kernel
  have h := Program.ofSource_of_tokens hsource
  have h' := Program.ofSource_of_tokens hmore
  have joined := Step.perform_join (h.trans rfl) (h'.trans rfl)
  exact ⟨_, _, h.trans rfl, h'.trans rfl, joined.1, joined.2 ∅⟩

end Rech
