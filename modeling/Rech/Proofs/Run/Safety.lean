import Rech.Proofs.Grammar.Runnable
import Rech.Proofs.Run.Guards
import Rech.Proofs.Run.Returning

/-!
# What a text spells can be run

A program that is read from a text ends in a result, or in something that it
does wrong, at the line of one of its statements. Nothing else can happen to it.
-/

namespace Rech

theorem Program.EndsWell.map {program : Program} {outcome : Except EvalError α}
    (h : program.EndsWell outcome) (f : α → β) : program.EndsWell (outcome.map f) := by
  cases outcome with
  | ok a => trivial
  | error error => exact h

/-- A program that is read from a text ends well on every store, traced or not,
and between its marks. The machine computes every operation and shows every
value without a fault. -/
theorem Program.ofSource_endsWell {source : List Char} {program : Program}
    (h : Program.ofSource source = .ok program) :
    (∀ trace store, program.EndsWell (program.exec trace store).outcome) ∧
    (∀ trace, program.EndsWell ((Tree.program program).run trace).outcome) ∧
    (∀ operator, Value.machineOperation? operator =
      (Value.mathOperation? operator).map fun operation a b => .ok (operation a b)) ∧
    ∀ value : Value, value.machineDisplay = .ok value.display := by
  have hexec := program.exec_endsWell (Program.runnable_ofSource h)
  refine ⟨hexec, fun trace => ?_, Value.machineOperation?_eq, Value.machineDisplay_eq⟩
  rw [Tree.run, Program.outcome_run]
  exact (hexec trace ∅).map Completion.value?

/-- A condition on a second line compares what is no number. -/
theorem Program.ofSource_endsWell_comparison :
    ∃ program, Program.ofSource "пусть a = 1;\nесли (a > \"\") \x7b \x7d".toList = .ok program ∧
      (program.exec true ∅).outcome = .error ⟨.comparisonOfNonNumbers, some 2⟩ ∧
      program.EndsWell (program.exec true ∅).outcome := by
  have htokens : Token.ofSource "пусть a = 1;\nесли (a > \"\") \x7b \x7d".toList =
      .ok [⟨.letWord, "пусть", ⟨1, 1⟩⟩, ⟨.identifier, "a", ⟨1, 7⟩⟩, ⟨.assign, "=", ⟨1, 9⟩⟩,
        ⟨.number, "1", ⟨1, 11⟩⟩, ⟨.semicolon, ";", ⟨1, 12⟩⟩, ⟨.ifWord, "если", ⟨2, 1⟩⟩,
        ⟨.leftParen, "(", ⟨2, 6⟩⟩, ⟨.identifier, "a", ⟨2, 7⟩⟩, ⟨.comparison, ">", ⟨2, 9⟩⟩,
        ⟨.string, "", ⟨2, 11⟩⟩, ⟨.rightParen, ")", ⟨2, 13⟩⟩, ⟨.leftBrace, "\x7b", ⟨2, 15⟩⟩,
        ⟨.rightBrace, "\x7d", ⟨2, 17⟩⟩, ⟨.endOfFile, "\x00", ⟨2, 18⟩⟩] := by
    decide +kernel
  have h := (Program.ofSource_of_tokens htokens).trans rfl
  obtain ⟨endsWell, -⟩ := Program.ofSource_endsWell h
  exact ⟨_, h, rfl, endsWell true ∅⟩

end Rech
