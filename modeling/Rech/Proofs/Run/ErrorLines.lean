import Rech.Proofs.Grammar.Runnable
import Rech.Proofs.Run.Chains
import Rech.Proofs.Run.Tracing

/-!
# The line of an error

An error is given its line on the way out, by the innermost statement around
it, and statements are announced on the way in. Both come to the same one: the
statement that is executed last is the one that fails, and if it has a line
the error has that line. A choice tests the conditions chained to it as its
own, so they fail at its line; the statements of the body that it takes fail
at theirs.
-/

namespace Rech

-- ---------------------------------------------------------------------------
-- Visits that fail
-- ---------------------------------------------------------------------------

namespace Task

/-- A visited statement that fails, by itself or by what it opens, fails the run. -/
theorem outcome_of_mem_visits {visit : Visit} (hmem : visit ∈ visits store tasks)
    (h : (visit.toTask.exec trace visit.store).outcome = .error error) :
    (execAll trace store tasks).outcome = .error error := by
  have hfirst {store task others} (hself : visit = ⟨task, store⟩) :
      (execAll trace store (task :: others)).outcome = .error error := by
    subst hself
    rw [execAll, Run.andThen_of_not_normal (by simp [h]), h]
  induction store, tasks using steps_induction with
  | nil store => simp [visits_nil] at hmem
  | stop store task others hstop =>
    rw [visits_cons_of_not_normal hstop] at hmem
    exact hfirst (List.mem_singleton.1 hmem)
  | step store task others hnormal ih =>
    rw [visits_cons_of_normal hnormal] at hmem
    rcases List.mem_cons.1 hmem with hself | hmem
    · exact hfirst hself
    · rw [execAll_cons, Run.andThen_of_normal hnormal]
      exact ih hmem

theorem inner_of_mem_visits {visit : Visit} (hmem : visit ∈ visits store tasks) :
    ∀ s ∈ visit.statement.inner, s ∈ statements tasks := by
  induction store, tasks using steps_induction with
  | nil store => simp [visits_nil] at hmem
  | stop store task others hstop =>
    rw [visits_cons_of_not_normal hstop] at hmem
    obtain rfl := List.mem_singleton.1 hmem
    intro s hs
    simp [statements_cons, hs]
  | step store task others hnormal ih =>
    rw [visits_cons_of_normal hnormal] at hmem
    intro s hs
    rw [statements_cons]
    rcases List.mem_cons.1 hmem with rfl | hmem
    · simp [hs]
    · have hopened := (statements_opened_sublist store task others).mem (ih hmem s hs)
      exact List.mem_cons_of_mem _ hopened

theorem outcome_choice {first : Choice} {outer : Option Int}
    (h : (first.exec trace store).outcome = .error error) :
    ((⟨outer, .choice first⟩ : Task).exec trace store).outcome =
      .error ⟨error.cause, (error.line <|> first.line) <|> outer⟩ := by
  show ((first.exec trace store).outcome.mapError _).mapError _ = _
  rw [h]
  rfl

end Task

-- ---------------------------------------------------------------------------
-- Programs
-- ---------------------------------------------------------------------------

namespace Program

def Lined (program : Program) : Prop := ∀ s ∈ program.statements, s.line.isSome

instance (program : Program) : Decidable program.Lined :=
  inferInstanceAs (Decidable (∀ s ∈ _, _))

theorem lined_ofSource {source : List Char} {program : Program}
    (h : Program.ofSource source = .ok program) : program.Lined :=
  fun s hmem => (runnable_ofSource h s hmem).line

end Program

/-- An error has the line of a statement, and the last announcement among the
lines is that of this statement. -/
def EvalError.AtLast (error : EvalError) (s : Stmt) (lines : List String) : Prop :=
  ∃ n before behind, s.line = some n ∧ error.line = some n ∧
    lines = before ++ ("TRACE line=" ++ (toString n ++ (" " ++ s.kindName))) :: behind ∧
      ∀ line ∈ behind, line.startsWith "TRACE " = false

namespace Program

theorem Lined.exists_line {program : Program} (lined : program.Lined) {visit : Visit}
    (h : visit ∈ program.visits store) : ∃ n, visit.statement.line = some n :=
  Option.isSome_iff_exists.1 (lined _ (mem_statements_of_mem_visits h))

theorem exists_atLast {program : Program} (lined : program.Lined)
    (h : (program.exec trace store).outcome = .error error) :
    ∃ s ∈ program.statements,
      error.AtLast s ((program.exec true store).events.map Event.text) := by
  obtain ⟨earlier, last, cause, hvisits, -, -, rfl⟩ := exists_failing h
  have hmem : last ∈ program.visits store := by simp [hvisits]
  obtain ⟨n, hn⟩ := lined.exists_line hmem
  refine ⟨last.statement, mem_statements_of_mem_visits hmem, n,
    (earlier.flatMap (Visit.events true)).map Event.text, last.own.events.map Event.text, hn,
    ?_, ?_, ?_⟩
  · simp [Task.line, hn]
  · rw [events_exec, hvisits]
    simp [Visit.events, Task.announcement, hn, Text.numberOrNone]
  · rw [List.forall_mem_map]
    intro event hevent
    obtain ⟨value, rfl⟩ := Stmt.events_own _ _ event hevent
    rw [Event.startsWith_text]
    rfl

theorem outcome_of_tested {program : Program} (lined : program.Lined) {visit : Visit}
    (hmem : visit ∈ program.visits store) (hchoice : visit.statement = .choice first)
    (htested : condition ∈ first.tested visit.store)
    (herror : condition.eval visit.store = .error cause) :
    (program.exec trace store).outcome = .error ⟨cause, first.line⟩ := by
  obtain ⟨n, hn⟩ := lined.exists_line hmem
  obtain ⟨⟨outer, s⟩, found⟩ := visit
  obtain rfl : s = .choice first := hchoice
  have hline : first.line = some n := hn
  have hexec : (first.exec trace found).outcome = .error ⟨cause, none⟩ := by
    rw [first.exec_eq, first.taken_of_tested herror htested]
    rfl
  rw [exec_eq]
  refine Task.outcome_of_mem_visits hmem ?_
  rw [Task.outcome_choice hexec, hline]
  rfl

theorem exists_atLast_of_taken {program : Program} (lined : program.Lined) {visit : Visit}
    {body : List Stmt}
    (hmem : visit ∈ program.visits store) (hchoice : visit.statement = .choice first)
    (htaken : first.taken visit.store = .ok body)
    (herror : (Stmt.execAll trace visit.store body).outcome = .error error) :
    (program.exec trace store).outcome = .error error ∧
      ∃ s ∈ Stmt.allStatements body,
        error.AtLast s ((Stmt.execAll true visit.store body).events.map Event.text) := by
  obtain ⟨⟨outer, s⟩, found⟩ := visit
  obtain rfl : s = .choice first := hchoice
  have linedBody : Program.Lined ⟨body⟩ := by
    intro s hs
    have hinner := (first.taken_sublist found htaken).mem hs
    exact lined s (program.statements_tasks ▸ Task.inner_of_mem_visits hmem s hinner)
  obtain ⟨s, hs, hlast⟩ := exists_atLast linedBody herror
  refine ⟨?_, s, hs, hlast⟩
  obtain ⟨n, -, -, -, hline, -⟩ := hlast
  obtain ⟨cause, own⟩ := error
  obtain rfl : own = some n := hline
  have hexec : (first.exec trace found).outcome = .error ⟨cause, some n⟩ := by
    rw [first.exec_eq, htaken]
    exact herror
  rw [exec_eq]
  refine Task.outcome_of_mem_visits hmem ?_
  exact Task.outcome_choice hexec

/-- The line of an error is that of the statement which is announced last. So a
test that fails anywhere in a chain fails at the line of the choice that begins
it, and a body that is taken fails at the line of one of its statements. The
statements of a program that is read from a text all have lines. -/
theorem error_line_announced_last :
    (∀ source program, Program.ofSource source = .ok program → program.Lined) ∧
    ∀ program : Program, program.Lined → ∀ trace store,
      (∀ error, (program.exec trace store).outcome = .error error →
        ∃ s ∈ program.statements,
          error.AtLast s ((program.exec true store).events.map Event.text)) ∧
      ∀ visit ∈ program.visits store, ∀ first, visit.statement = .choice first →
        (∀ condition ∈ first.tested visit.store, ∀ cause,
          condition.eval visit.store = .error cause →
            (program.exec trace store).outcome = .error ⟨cause, first.line⟩) ∧
        ∀ body error, first.taken visit.store = .ok body →
          (Stmt.execAll trace visit.store body).outcome = .error error →
            (program.exec trace store).outcome = .error error ∧
              ∃ s ∈ Stmt.allStatements body,
                error.AtLast s ((Stmt.execAll true visit.store body).events.map Event.text) := by
  refine ⟨fun source program h => lined_ofSource h, fun program lined trace store => ⟨?_, ?_⟩⟩
  · intro error h
    exact exists_atLast lined h
  · intro visit hmem first hchoice
    refine ⟨?_, ?_⟩
    · intro condition htested cause herror
      exact outcome_of_tested lined hmem hchoice htested herror
    · intro body error htaken herror
      exact exists_atLast_of_taken lined hmem hchoice htaken herror

/-- `если (0 < 0) { } иначе если (0 == operand) { body }`, the second condition
on a line of its own. -/
def sampleChain (operand : Expr) (body : List Stmt) : Choice :=
  let zero : Expr := .number none (.zero false)
  .mk (some 1) ⟨some 1, zero, "<", zero⟩ (.mk none [])
    (.choice (.mk (some 2) ⟨some 2, zero, "==", operand⟩ (.mk none body) .nothing))

/-- An unknown name in the chained condition, and one in the body that it takes. -/
theorem error_line_announced_last_chain :
    let name : Expr := .identifier ⟨none, "a"⟩
    let failing : Program := ⟨[.choice (sampleChain name [])]⟩
    let body : List Stmt := [.print (some 3) name]
    let taking : Program := ⟨[.choice (sampleChain (.number none (.zero false)) body)]⟩
    (∃ program, Program.ofSource "a;".toList = .ok program ∧ program.Lined) ∧
    (failing.Lined ∧ (failing.exec false ∅).outcome = .error ⟨.unknownName "a", some 1⟩) ∧
    (taking.Lined ∧ (taking.exec false ∅).outcome = .error ⟨.unknownName "a", some 3⟩ ∧
      (∃ s ∈ taking.statements, EvalError.AtLast ⟨.unknownName "a", some 3⟩ s
        ((taking.exec true ∅).events.map Event.text)) ∧
      ∃ s ∈ body, EvalError.AtLast ⟨.unknownName "a", some 3⟩ s
        ["TRACE line=3 PrintStatement"]) := by
  intro name failing body taking
  obtain ⟨lined, reported⟩ := error_line_announced_last
  have htokens : Token.ofSource "a;".toList =
      .ok [⟨.identifier, "a", ⟨1, 1⟩⟩, ⟨.semicolon, ";", ⟨1, 2⟩⟩,
        ⟨.endOfFile, "\x00", ⟨1, 3⟩⟩] := by
    decide +kernel
  have hread := (Program.ofSource_of_tokens htokens).trans rfl
  have hfailing : failing.Lined := by decide
  have htaking : taking.Lined := by decide
  have htaken : (Stmt.execAll false ∅ body).outcome = .error ⟨.unknownName "a", some 3⟩ := rfl
  obtain ⟨-, hchain⟩ := reported failing hfailing false ∅
  obtain ⟨htest, -⟩ := hchain _ (mem_visits_cons ∅ _ []) _ rfl
  obtain ⟨hlast, hchosen⟩ := reported taking htaking false ∅
  obtain ⟨-, hbody⟩ := hchosen _ (mem_visits_cons ∅ _ []) _ rfl
  obtain ⟨houtcome, hatLast⟩ := hbody body _ rfl htaken
  exact ⟨⟨_, hread, lined _ _ hread⟩,
    ⟨hfailing, htest ⟨some 2, .number none (.zero false), "==", name⟩
      (List.mem_cons_of_mem _ List.mem_cons_self) _ rfl⟩,
    htaking, houtcome, hlast _ houtcome, hatLast⟩

end Program

end Rech
