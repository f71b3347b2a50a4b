import Rech.Proofs.Grammar.Source
import Rech.Proofs.Run.Names
import Rech.Proofs.Session.Turns

/-!
# Names in a session

The steps of a session leave the names of its store there, also when they
fail. So a name is in the store from the first declaration of it that is
executed, and every declaration of it that is executed later fails.
-/

namespace Rech

-- ---------------------------------------------------------------------------
-- One step
-- ---------------------------------------------------------------------------

namespace Turn

/-- The statements that a step executes take the store from one to the next, and
nothing else in a step changes it. -/
theorem threads (trace : Bool) (turn : Turn) :
    Visit.Threads turn.store turn.visits (turn.report trace).store := by
  obtain ⟨step, store⟩ := turn
  have hperforms := step.performs trace store
  simp only [visits, report, Step.visits]
  generalize step.work? = work at hperforms ⊢
  cases hperforms with
  | nothing unchanged =>
    rw [unchanged]
    exact .nil
  | @program whole left _ =>
    rw [left]
    exact whole.threads_visits trace store
  | expression unchanged _ =>
    rw [unchanged]
    exact .nil

/-- A step fails at a visit, which does nothing but to fail: it is the last one,
prints nothing and leaves the store that it has come to. -/
structure FailsAt (trace : Bool) (turn : Turn) (visit : Visit) (found : Store)
    (message : String) : Prop where
  last : turn.visits.getLast? = some visit
  silent : visit.own.events = []
  store : (turn.report trace).store = found
  outcome : ∃ error : EvalError, (turn.report trace).outcome = .error (.stopped error) ∧
    error.cause.message = message ∧ error.line = visit.line

theorem failsAt_of_fail {turn : Turn} {visit : Visit} (trace : Bool)
    (hmem : visit ∈ turn.visits) (hown : visit.statement.own visit.store = .fail found cause) :
    turn.FailsAt trace visit found cause.message := by
  obtain ⟨step, store⟩ := turn
  have hperforms := step.performs trace store
  simp only [visits, Step.visits] at hmem
  split at hmem
  next whole hwork =>
    rw [hwork] at hperforms
    cases hperforms with
    | program left fails =>
      obtain ⟨hlast, hsilent, hstore, houtcome⟩ := Program.ends_of_fail trace hmem hown
      refine ⟨?_, hsilent, left.trans hstore, _, fails _ houtcome, rfl, rfl⟩
      rw [visits, Step.visits, hwork]
      exact hlast
  next => cases hmem

theorem report_of_reads {turn : Turn} (trace : Bool)
    (hwork : turn.step.work? = some (.expression e)) (hreads : e.Reads turn.store name)
    (hname : name ∉ turn.store) :
    turn.report trace = ⟨[], turn.store, .error (.stopped ⟨.unknownName name, none⟩)⟩ := by
  obtain ⟨step, store⟩ := turn
  have hperforms := step.performs trace store
  rw [hwork] at hperforms
  cases hperforms with
  | expression _ fails => exact fails _ (hreads.eval_of_not_mem hname)

end Turn

-- ---------------------------------------------------------------------------
-- All steps
-- ---------------------------------------------------------------------------

namespace Step

theorem threads_turns (trace : Bool) (store : Store) (steps : List Step) :
    Visit.Threads store ((turns trace store steps).flatMap Turn.visits)
      (left trace store steps) := by
  induction steps generalizing store with
  | nil => exact .nil
  | cons step others ih =>
    rw [turns, List.flatMap_cons, left]
    exact (Turn.threads trace ⟨step, store⟩).append (ih _)

theorem mem_store_of_mem_performAll (hreport : report ∈ performAll trace store steps)
    (hname : name ∈ store) : name ∈ report.store := by
  induction steps generalizing store with
  | nil => cases hreport
  | cons step others ih =>
    have hkept : name ∈ (step.perform trace store).store :=
      ((Turn.threads trace ⟨step, store⟩).mem_iff name).2 (.inl hname)
    rcases List.mem_cons.1 hreport with rfl | hreport
    · exact hkept
    · exact ih hreport hkept

theorem pairwise_performAll (trace : Bool) (store : Store) (steps : List Step) :
    (performAll trace store steps).Pairwise fun report later =>
      ∀ name ∈ report.store, name ∈ later.store := by
  induction steps generalizing store with
  | nil => exact .nil
  | cons step others ih =>
    exact .cons (fun _ hlater _ hname => mem_store_of_mem_performAll hlater hname) (ih _)

/-- Whatever steps a session takes from an empty store, no name leaves it again,
and a name is there just when a declaration of it was executed that found it new;
there is no more than one of these. A declaration of a name that is there ends
its step, and so does what reads or assigns a name that is not; neither changes
anything. -/
theorem names_declared_once (trace : Bool) (steps : List Step) :
    let turns := turns trace ∅ steps
    let visits := turns.flatMap Turn.visits
    turns.map (Turn.report trace) = performAll trace ∅ steps ∧
    (performAll trace ∅ steps).Pairwise
      (fun report later => ∀ name ∈ report.store, name ∈ later.store) ∧
    (∀ name, name ∈ left trace ∅ steps ↔ ∃ visit ∈ visits, visit.Introduces name) ∧
    (∀ earlier visit later, visits = earlier ++ visit :: later →
      ∀ name, name ∈ visit.store ↔ ∃ before ∈ earlier, before.Introduces name) ∧
    visits.Pairwise
      (fun visit later => ∀ name, visit.Introduces name → ¬later.Introduces name) ∧
    (∀ turn ∈ turns, ∀ visit ∈ turn.visits, ∀ name,
      (visit.statement.declares? = some name → name ∈ visit.store →
        turn.FailsAt trace visit visit.store ("Повторное объявление переменной " ++ name)) ∧
      (visit.statement.Reads visit.store name ∨ visit.statement.Assigns visit.store name →
        name ∉ visit.statement.ground visit.store →
          turn.FailsAt trace visit (visit.statement.ground visit.store)
            ("Неизвестный идентификатор " ++ name))) ∧
    ∀ turn ∈ turns, ∀ e, turn.step.work? = some (.expression e) →
      ∀ name, e.Reads turn.store name → name ∉ turn.store →
        turn.report trace = ⟨[], turn.store, .error (.stopped ⟨.unknownName name, none⟩)⟩ ∧
          (EvalError.Cause.unknownName name).message = "Неизвестный идентификатор " ++ name := by
  intro turns visits
  have hthreads : Visit.Threads ∅ visits (left trace ∅ steps) := threads_turns trace ∅ steps
  refine ⟨map_report_turns trace ∅ steps, pairwise_performAll trace ∅ steps, ?_, ?_,
    hthreads.pairwise, ?_, ?_⟩
  · intro name
    simpa using hthreads.mem_iff name
  · intro earlier visit later hvisits name
    rw [hvisits] at hthreads
    simpa using hthreads.of_append.mem_iff name
  · intro turn _ visit hmem name
    refine ⟨fun hdeclares hname => ?_, fun hneeds hname => ?_⟩
    · exact Turn.failsAt_of_fail trace hmem (Stmt.own_of_declares hdeclares hname)
    · have hown := hneeds.elim (Stmt.own_of_reads · hname) (Stmt.own_of_assigns · hname)
      exact Turn.failsAt_of_fail trace hmem hown
  · intro turn _ e hwork name hreads hname
    exact ⟨Turn.report_of_reads trace hwork hreads hname, rfl⟩

/-- `пусть a = value;` -/
def sampleDeclaration (value : String) : Stmt :=
  let name : Identifier := ⟨some 1, "a"⟩
  .declaration ⟨some 1, name, ⟨some 1, name, .identifier ⟨some 1, value⟩⟩⟩

/-- A first value that reads an unknown name, then another declaration of the name
and a question for the unknown one. -/
theorem names_declared_once_failing :
    let declaring : Step := .execute "пусть a = b;".toList
    let again : Step := .execute "пусть a = a;".toList
    let asking : Step := .evaluate "b".toList
    let found : Store := (∅ : Store).insert "a" .unset
    let steps := [declaring, again, asking]
    turns false ∅ steps = [⟨declaring, ∅⟩, ⟨again, found⟩, ⟨asking, found⟩] ∧
    (∃ visit, Turn.FailsAt false ⟨declaring, ∅⟩ visit found "Неизвестный идентификатор b") ∧
    (∃ visit, Turn.FailsAt false ⟨again, found⟩ visit found
      "Повторное объявление переменной a") ∧
    (∃ earlier visit later, (turns false ∅ steps).flatMap Turn.visits = earlier ++ visit :: later ∧
      ∃ before ∈ earlier, before.Introduces "a") ∧
    Turn.report false ⟨asking, found⟩ =
      ⟨[], found, .error (.stopped ⟨.unknownName "b", none⟩)⟩ := by
  intro declaring again asking found steps
  have hdeclaring : Token.ofSource "пусть a = b;".toList =
      .ok [⟨.letWord, "пусть", ⟨1, 1⟩⟩, ⟨.identifier, "a", ⟨1, 7⟩⟩, ⟨.assign, "=", ⟨1, 9⟩⟩,
        ⟨.identifier, "b", ⟨1, 11⟩⟩, ⟨.semicolon, ";", ⟨1, 12⟩⟩,
        ⟨.endOfFile, "\x00", ⟨1, 13⟩⟩] := by
    decide +kernel
  have hagain : Token.ofSource "пусть a = a;".toList =
      .ok [⟨.letWord, "пусть", ⟨1, 1⟩⟩, ⟨.identifier, "a", ⟨1, 7⟩⟩, ⟨.assign, "=", ⟨1, 9⟩⟩,
        ⟨.identifier, "a", ⟨1, 11⟩⟩, ⟨.semicolon, ";", ⟨1, 12⟩⟩,
        ⟨.endOfFile, "\x00", ⟨1, 13⟩⟩] := by
    decide +kernel
  have hasking : Token.ofSource "b".toList =
      .ok [⟨.identifier, "b", ⟨1, 1⟩⟩, ⟨.endOfFile, "\x00", ⟨1, 2⟩⟩] := by
    decide +kernel
  have hprogram : Program.ofSource "пусть a = b;".toList = .ok ⟨[sampleDeclaration "b"]⟩ :=
    (Program.ofSource_of_tokens hdeclaring).trans rfl
  have hother : Program.ofSource "пусть a = a;".toList = .ok ⟨[sampleDeclaration "a"]⟩ :=
    (Program.ofSource_of_tokens hagain).trans rfl
  have hwork : asking.work? = some (.expression (.identifier ⟨some 1, "b"⟩)) := by
    rw [work?, hasking]
    rfl
  have hleft : (declaring.perform false ∅).store = found := by
    rw [perform, hprogram]
    rfl
  have hkept : (again.perform false found).store = found := by
    rw [perform, hother]
    rfl
  have hturns : turns false ∅ steps = [⟨declaring, ∅⟩, ⟨again, found⟩, ⟨asking, found⟩] := by
    simp only [steps, turns, hleft, hkept]
  have hknown : "a" ∈ found := Std.TreeMap.mem_insert_self
  have hunknown : "b" ∉ found := by
    simp [found]
  have hfirst := Program.mem_visits_cons ∅ (sampleDeclaration "b") []
  rw [← visits_execute hprogram] at hfirst
  have hsecond := Program.mem_visits_cons found (sampleDeclaration "a") []
  rw [← visits_execute hother] at hsecond
  obtain ⟨-, -, -, hfound, -, hfails, hasked⟩ := names_declared_once false steps
  obtain ⟨-, hreads⟩ := hfails ⟨declaring, ∅⟩ (by simp [hturns]) _ hfirst "b"
  obtain ⟨hrepeated, -⟩ := hfails ⟨again, found⟩ (by simp [hturns]) _ hsecond "a"
  have hmem : ⟨⟨none, sampleDeclaration "a"⟩, found⟩ ∈ (turns false ∅ steps).flatMap Turn.visits :=
    List.mem_flatMap.2 ⟨⟨again, found⟩, by simp [hturns], hsecond⟩
  obtain ⟨earlier, later, hvisits⟩ := List.append_of_mem hmem
  exact ⟨hturns, ⟨_, hreads (.inl ⟨_, List.mem_cons_self, .identifier⟩) hunknown⟩,
    ⟨_, hrepeated rfl hknown⟩,
    ⟨earlier, _, later, hvisits, (hfound earlier _ later hvisits "a").1 hknown⟩,
    (hasked ⟨asking, found⟩ (by simp [hturns]) _ hwork "b" .identifier hunknown).1⟩

end Step

end Rech
