import Rech.Proofs.Run.Vocabulary
import Rech.Proofs.Session.Names
import Rech.Proofs.Session.Readings

/-!
# The words of a session

Every string in a session is the text of a string token of one of its sources,
and every name and operator in an error is one of theirs. No token has a newline
inside, so nothing that is shown has one, and the lines that are shown can be told
from what is printed.
-/

namespace Rech

open Token (Word)

variable {words : Word → Prop} {store : Store}

-- ---------------------------------------------------------------------------
-- What is read
-- ---------------------------------------------------------------------------

theorem Parsing.madeOf_expression
    (h : Token.ofSource source >>= expression.ofTokens = .ok e)
    (hw : ∀ word : Word, word.In source → words word) : e.MadeOf words := by
  obtain ⟨tokens, htokens, h⟩ := bind_eq_ok.1 h
  have hword := Token.word_of_ofSource htokens hw
  obtain ⟨stream, after, rfl, hended, hrun⟩ := exists_runOn_of_ofTokens h
  obtain ⟨w, passed, derives⟩ := sound_expression hended hrun
  rw [passed.ahead] at hword
  exact derives.madeOf (List.forall_mem_append.1 hword).1

namespace Snippet

def MadeOf (words : Word → Prop) : Snippet → Prop
  | .program whole => ∀ s ∈ whole.statements, s.MadeOf words
  | .expression value => value.MadeOf words

theorem madeOf_ofSource (h : ofSource source = .ok reading)
    (hw : ∀ word : Word, word.In source → words word) : reading.MadeOf words := by
  have hreads := reads_ofSource source
  rw [h] at hreads
  cases hreads with
  | program cut reads =>
    exact Program.madeOf_ofSource ((Program.ofSource_of_tokens cut).trans reads) hw
  | expression cut reads =>
    have hword := Token.word_of_ofSource cut hw
    refine (Parsing.derives_wholeExpression reads).madeOf fun token htoken => ?_
    exact hword token ((List.takeWhile_sublist _).subset htoken)

end Snippet

-- ---------------------------------------------------------------------------
-- What is reported
-- ---------------------------------------------------------------------------

/-- A line that shows an event or a value which is made of such words. -/
inductive Shown (words : Word → Prop) : String → Prop
  | event (made : Event.MadeOf words event) : Shown words event.text
  | value (made : Value.MadeOf words value) : Shown words value.display

theorem Shown.inLine (h : Shown words line) (hw : ∀ word, words word → Text.InLine word.text) :
    Text.InLine line := by
  cases h with
  | event made => exact made.inLine_text hw
  | value made => exact made.inLine_display hw

structure Report.MadeOf (words : Word → Prop) (holds : α → Prop) (report : Report α) : Prop where
  lines : ∀ line ∈ report.lines, Shown words line
  store : report.store.MadeOf words
  result : ∀ a, report.outcome = .ok a → holds a
  cause : ∀ error, report.outcome = .error (.stopped error) → error.cause.MadeOf words

theorem Report.join_printed (reports : List (Report α)) :
    String.join (reports.map Report.printed) = Text.printed (reports.flatMap Report.lines) := by
  induction reports with
  | nil => rfl
  | cons report others ih =>
    rw [List.map_cons, String.join_cons, ih, List.flatMap_cons, Text.printed_append]
    rfl

theorem Report.madeOf_unreadable {holds : α → Prop} (hstore : Store.MadeOf words store)
    (error : SyntaxError) : (Report.unreadable store error).MadeOf words holds where
  lines := List.forall_mem_nil _
  store := hstore
  result := by rintro _ ⟨⟩
  cause := by rintro _ ⟨⟩

theorem Run.MadeOf.report {holds : α → Prop} {run : Run α} (h : run.MadeOf words holds) :
    run.report.MadeOf words holds := by
  obtain ⟨events, store, outcome⟩ := run
  refine ⟨?_, h.store, ?_, ?_⟩
  · rw [Run.report, List.forall_mem_map]
    exact fun event hmem => .event (h.events event hmem)
  · cases outcome with
    | ok a => rintro _ ⟨⟩; exact h.result a rfl
    | error error => rintro _ ⟨⟩
  · cases outcome with
    | ok a => rintro _ ⟨⟩
    | error error => rintro _ ⟨⟩; exact h.cause error rfl

namespace Report.MadeOf

variable {holds : α → Prop} {given : β → Prop} {report : Report α}

theorem map (h : report.MadeOf words holds) (f : α → β) (hf : ∀ a, holds a → given (f a)) :
    (report.map f).MadeOf words given := by
  obtain ⟨lines, store, outcome⟩ := report
  refine ⟨h.lines, h.store, ?_, ?_⟩
  · cases outcome with
    | ok a => rintro _ ⟨⟩; exact hf a (h.result a rfl)
    | error failure => rintro _ ⟨⟩
  · cases outcome with
    | ok a => rintro _ ⟨⟩
    | error failure => rintro error ⟨⟩; exact h.cause error rfl

theorem telling {line? : α → Option String} (h : report.MadeOf words holds)
    (hline : ∀ a, holds a → ∀ line ∈ line? a, Shown words line) :
    (report.telling line?).MadeOf words holds where
  lines := by
    refine List.forall_mem_append.2 ⟨h.lines, ?_⟩
    cases houtcome : report.outcome with
    | ok a => simpa [houtcome] using hline a (h.result a houtcome)
    | error failure => exact List.forall_mem_nil _
  store := h.store
  result := h.result
  cause := h.cause

end Report.MadeOf

theorem Expr.MadeOf.report (h : Expr.MadeOf words e) (hstore : Store.MadeOf words store) :
    (e.report store).MadeOf words (Value.MadeOf words) :=
  (Run.MadeOf.given hstore h fun _ hvalue => .done hstore hvalue).report

theorem Snippet.MadeOf.report {reading : Snippet} (h : reading.MadeOf words) (trace : Bool)
    (hstore : Store.MadeOf words store) :
    (reading.report trace store).MadeOf words fun _ => True := by
  cases reading with
  | program whole =>
    have hexec := (Program.madeOf_exec h trace hstore).report
    refine (hexec.telling fun completion hcompletion line hline => ?_).map _ fun _ _ => trivial
    obtain ⟨value, hvalue, rfl⟩ := Option.map_eq_some_iff.1 hline
    have hresult : Event.MadeOf words (.result value) := hcompletion value hvalue
    exact .event hresult
  | expression e =>
    have hvalue := Expr.MadeOf.report h hstore
    refine (hvalue.telling fun value hmade line hline => ?_).map _ fun _ _ => trivial
    obtain rfl := Option.some.inj hline
    exact .value hmade

-- ---------------------------------------------------------------------------
-- One step
-- ---------------------------------------------------------------------------

def StepResult.MadeOf (words : Word → Prop) : StepResult → Prop
  | .completed completion => completion.MadeOf words
  | .shown => True
  | .evaluated value => value.MadeOf words
  | .ran result => ∀ value ∈ result, value.MadeOf words

def Step.source : Step → List Char
  | .execute source | .snippet source | .evaluate source | .run source => source

theorem Step.madeOf_perform (step : Step) (trace : Bool)
    (hw : ∀ word : Word, word.In step.source → words word) (hstore : Store.MadeOf words store) :
    (step.perform trace store).MadeOf words (StepResult.MadeOf words) := by
  cases step with
  | execute source =>
    rw [perform]
    cases hprogram : Program.ofSource source with
    | error error => exact Report.madeOf_unreadable hstore error
    | ok program =>
      have hmade := Program.madeOf_ofSource hprogram hw
      exact (Program.madeOf_exec hmade trace hstore).report.map _ fun _ h => h
  | snippet source =>
    rw [perform]
    cases hreading : Snippet.ofSource source with
    | error error => exact Report.madeOf_unreadable hstore error
    | ok reading =>
      have hmade := Snippet.madeOf_ofSource hreading hw
      exact (hmade.report trace hstore).map _ fun _ _ => trivial
  | evaluate source =>
    rw [perform]
    cases hreads : Token.ofSource source >>= Parsing.expression.ofTokens with
    | error error => exact Report.madeOf_unreadable hstore error
    | ok e =>
      have hmade := Parsing.madeOf_expression hreads hw
      exact (hmade.report hstore).map _ fun _ h => h
  | run source =>
    rw [perform]
    cases hprogram : Program.ofSource source with
    | error error => exact Report.madeOf_unreadable hstore error
    | ok program =>
      have hmade := Program.madeOf_ofSource hprogram hw
      have hrun : ((program.run trace).report.map StepResult.ran).MadeOf words
          (StepResult.MadeOf words) :=
        (Program.madeOf_run hmade trace).report.map _ fun _ h => h
      exact ⟨hrun.lines, hstore, hrun.result, hrun.cause⟩

/-- What a program does as it is executed: the statements that it comes to, and
what it shows. -/
structure Interpretation where
  visits : List Visit
  events : List Event

namespace Turn

def interpretation (trace : Bool) (turn : Turn) : Interpretation :=
  match turn.step with
  | .run source =>
    match Program.ofSource source with
    | .ok whole => ⟨whole.visits ∅, (whole.run trace).events⟩
    | .error _ => ⟨[], []⟩
  | step =>
    match step.work? with
    | some (.program whole) =>
      ⟨whole.visits turn.store, (whole.exec trace turn.store).events⟩
    | _ => ⟨[], []⟩

end Turn

theorem toOption_eq_some_iff {result : Except ε α} {a : α} :
    result.toOption = some a ↔ result = .ok a := by
  cases result <;> simp [Except.toOption]

theorem Step.madeOf_work {step : Step} (h : step.work? = some reading)
    (hw : ∀ word : Word, word.In step.source → words word) : reading.MadeOf words := by
  cases step with
  | execute source =>
    obtain ⟨program, hprogram, rfl⟩ := Option.map_eq_some_iff.1 h
    exact Program.madeOf_ofSource (toOption_eq_some_iff.1 hprogram) hw
  | snippet source => exact Snippet.madeOf_ofSource (toOption_eq_some_iff.1 h) hw
  | evaluate source =>
    obtain ⟨e, hreads, rfl⟩ := Option.map_eq_some_iff.1 h
    exact Parsing.madeOf_expression (toOption_eq_some_iff.1 hreads) hw
  | run source => cases h

namespace Turn

theorem prefix_lines (trace : Bool) (turn : Turn) :
    (turn.interpretation trace).events.map Event.text <+: (turn.report trace).lines := by
  obtain ⟨step, store⟩ := turn
  cases step with
  | execute source =>
    cases hprogram : Program.ofSource source with
    | error error => simp [interpretation, Step.work?, hprogram, Except.toOption]
    | ok program =>
      simp [interpretation, report, Step.perform, Step.work?, hprogram, Except.toOption,
        Report.map, Run.report]
  | snippet source =>
    cases hreading : Snippet.ofSource source with
    | error error => simp [interpretation, Step.work?, hreading, Except.toOption]
    | ok reading =>
      cases reading with
      | program whole =>
        simp [interpretation, report, Step.perform, Step.work?, hreading, Except.toOption,
          Report.map, Report.telling, Run.report, Snippet.report]
      | expression e => simp [interpretation, Step.work?, hreading, Except.toOption]
  | evaluate source =>
    cases hreads : Token.ofSource source >>= Parsing.expression.ofTokens with
    | error error => simp [interpretation, Step.work?, hreads, Except.toOption]
    | ok e => simp [interpretation, Step.work?, hreads, Except.toOption]
  | run source =>
    cases hprogram : Program.ofSource source with
    | error error => simp [interpretation, hprogram]
    | ok program =>
      simp [interpretation, report, Step.perform, hprogram, Report.map, Run.report]

theorem madeOf_interpretation (turn : Turn) (trace : Bool)
    (hw : ∀ word : Word, word.In turn.step.source → words word)
    (hstore : turn.store.MadeOf words) :
    (∀ visit ∈ (turn.interpretation trace).visits, visit.MadeOf words) ∧
      ∀ event ∈ (turn.interpretation trace).events, event.MadeOf words := by
  unfold interpretation
  split
  next source hstep =>
    split
    next whole hprogram =>
      have hmade := Program.madeOf_ofSource hprogram fun word hword => hw word (hstep ▸ hword)
      exact ⟨Program.madeOf_visits hmade Store.madeOf_empty,
        (Program.madeOf_run hmade trace).events⟩
    next => exact ⟨List.forall_mem_nil _, List.forall_mem_nil _⟩
  next =>
    split
    next whole hwork =>
      have hmade : Snippet.MadeOf words (.program whole) := Step.madeOf_work hwork hw
      exact ⟨Program.madeOf_visits hmade hstore, (Program.madeOf_exec hmade trace hstore).events⟩
    next => exact ⟨List.forall_mem_nil _, List.forall_mem_nil _⟩

/-- What a step stores, shows and returns, and why it fails, is made of such words
at every moment. -/
structure MadeOf (trace : Bool) (words : Word → Prop) (turn : Turn) : Prop where
  store : turn.store.MadeOf words
  visits : ∀ visit ∈ (turn.interpretation trace).visits, visit.MadeOf words
  events : ∀ event ∈ (turn.interpretation trace).events, event.MadeOf words
  report : (turn.report trace).MadeOf words (StepResult.MadeOf words)

theorem madeOf (turn : Turn) (trace : Bool)
    (hw : ∀ word : Word, word.In turn.step.source → words word)
    (hstore : turn.store.MadeOf words) : turn.MadeOf trace words := by
  obtain ⟨visits, events⟩ := turn.madeOf_interpretation trace hw hstore
  exact ⟨hstore, visits, events, turn.step.madeOf_perform trace hw hstore⟩

/-- The lines that go to the sink in a step. -/
def sunk (trace : Bool) (turn : Turn) : List String :=
  (turn.interpretation trace).events.map Event.text

end Turn

-- ---------------------------------------------------------------------------
-- All steps
-- ---------------------------------------------------------------------------

/-- The words of the texts of a session. -/
def Step.Words (steps : List Step) (word : Word) : Prop := ∃ step ∈ steps, word.In step.source

namespace Step

theorem madeOf_turns (trace : Bool) (steps : List Step)
    (hw : ∀ step ∈ steps, ∀ word : Word, word.In step.source → words word)
    (hstore : Store.MadeOf words store) :
    ∀ turn ∈ turns trace store steps, turn.MadeOf trace words := by
  induction steps generalizing store with
  | nil => exact List.forall_mem_nil _
  | cons step others ih =>
    obtain ⟨hstep, hothers⟩ := List.forall_mem_cons.1 hw
    have hturn := Turn.madeOf ⟨step, store⟩ trace hstep hstore
    exact List.forall_mem_cons.2 ⟨hturn, ih hothers hturn.report.store⟩

theorem Words.inLine {steps : List Step} (word : Word) (h : Words steps word) :
    Text.InLine word.text := by
  obtain ⟨step, -, hword⟩ := h
  exact hword.inLine

theorem Words.isLiteral {steps : List Step} {text : String} (h : Words steps ⟨.string, text⟩) :
    Token.IsLiteral text := by
  obtain ⟨step, -, hword⟩ := h
  exact hword.isLiteral

/-- Strings are those that the texts of a session spell. Whatever steps it takes
from an empty store, every string that is stored, shown or returned at any moment
is the text of a string token, with no quote and no newline inside. So no line
that is shown and no message of an error has a newline, and the lines come back
from what is printed, those of a sink from what goes to the sink. -/
theorem strings_verbatim (trace : Bool) (steps : List Step) :
    let turns := turns trace ∅ steps
    let reports := performAll trace ∅ steps
    turns.map (Turn.report trace) = reports ∧
    (∀ text, Words steps ⟨.string, text⟩ → Token.IsLiteral text) ∧
    (∀ turn ∈ turns, turn.MadeOf trace (Words steps) ∧
      turn.sunk trace <+: (turn.report trace).lines) ∧
    (∀ report ∈ reports, (∀ line ∈ report.lines, Text.InLine line) ∧
      ∀ error, report.outcome = .error (.stopped error) → Text.InLine error.cause.message) ∧
    Text.lines (Text.printed (turns.flatMap (Turn.sunk trace))).toList =
      (turns.flatMap (Turn.sunk trace)).map String.toList ∧
    Text.lines (String.join (reports.map Report.printed)).toList =
      (reports.flatMap Report.lines).map String.toList := by
  intro turns reports
  have hturns : turns.map (Turn.report trace) = reports := map_report_turns trace ∅ steps
  have hmade : ∀ turn ∈ turns, turn.MadeOf trace (Words steps) :=
    madeOf_turns trace steps (fun step hstep word hword => ⟨step, hstep, hword⟩)
      Store.madeOf_empty
  have hreports : ∀ report ∈ reports,
      report.MadeOf (Words steps) (StepResult.MadeOf (Words steps)) := by
    rw [← hturns, List.forall_mem_map]
    exact fun turn hturn => (hmade turn hturn).report
  have hlines : ∀ report ∈ reports, ∀ line ∈ report.lines, Text.InLine line :=
    fun report hreport line hline =>
      ((hreports report hreport).lines line hline).inLine Words.inLine
  refine ⟨hturns, fun text h => h.isLiteral, ?_, ?_, ?_, ?_⟩
  · exact fun turn hturn => ⟨hmade turn hturn, turn.prefix_lines trace⟩
  · intro report hreport
    refine ⟨hlines report hreport, fun error herror => ?_⟩
    exact ((hreports report hreport).cause error herror).inLine_message Words.inLine
  · refine Text.lines_printed fun line hline => ?_
    obtain ⟨turn, hturn, hline⟩ := List.mem_flatMap.1 hline
    obtain ⟨event, hevent, rfl⟩ := List.mem_map.1 hline
    exact ((hmade turn hturn).events event hevent).inLine_text Words.inLine
  · rw [Report.join_printed]
    refine Text.lines_printed fun line hline => ?_
    obtain ⟨report, hreport, hline⟩ := List.mem_flatMap.1 hline
    exact hlines report hreport line hline

/-- A string is stored, and then shown as the value of a snippet, and a question
for an unknown name fails. -/
theorem strings_verbatim_stored :
    let storing : Step := .execute "пусть a = \"б\";".toList
    let showing : Step := .snippet "a".toList
    let asking : Step := .evaluate "b".toList
    let steps := [storing, showing, asking]
    let found : Store := ((∅ : Store).insert "a" .unset).insert "a" (.string "б")
    let error : EvalError := ⟨.unknownName "b", none⟩
    turns false ∅ steps = [⟨storing, ∅⟩, ⟨showing, found⟩, ⟨asking, found⟩] ∧
    (Words steps ⟨.string, "б"⟩ ∧ Token.IsLiteral "б") ∧
    Turn.MadeOf false (Words steps) ⟨showing, found⟩ ∧
    (Turn.report false ⟨showing, found⟩ = ⟨["б"], found, .ok .shown⟩ ∧ Text.InLine "б") ∧
    (Turn.report false ⟨asking, found⟩ = ⟨[], found, .error (.stopped error)⟩ ∧
      Text.InLine error.cause.message) := by
  intro storing showing asking steps found error
  have hstoring : Token.ofSource "пусть a = \"б\";".toList =
      .ok [⟨.letWord, "пусть", ⟨1, 1⟩⟩, ⟨.identifier, "a", ⟨1, 7⟩⟩, ⟨.assign, "=", ⟨1, 9⟩⟩,
        ⟨.string, "б", ⟨1, 11⟩⟩, ⟨.semicolon, ";", ⟨1, 14⟩⟩, ⟨.endOfFile, "\x00", ⟨1, 15⟩⟩] := by
    decide +kernel
  have hshowing : Token.ofSource "a".toList =
      .ok [⟨.identifier, "a", ⟨1, 1⟩⟩, ⟨.endOfFile, "\x00", ⟨1, 2⟩⟩] := by
    decide +kernel
  have hasking : Token.ofSource "b".toList =
      .ok [⟨.identifier, "b", ⟨1, 1⟩⟩, ⟨.endOfFile, "\x00", ⟨1, 2⟩⟩] := by
    decide +kernel
  have hprogram : Program.ofSource "пусть a = \"б\";".toList = .ok ⟨[.declaration
      ⟨some 1, ⟨some 1, "a"⟩, ⟨some 1, ⟨some 1, "a"⟩, .string (some 1) "б"⟩⟩]⟩ :=
    (Program.ofSource_of_tokens hstoring).trans rfl
  have hsnippet : Snippet.Reads "a".toList (.ok (.expression (.identifier ⟨some 1, "a"⟩))) :=
    .expression hshowing rfl
  have hstored : (storing.perform false ∅).store = found := by
    rw [perform, hprogram]
    cbv
  have hreported : Turn.report false ⟨showing, found⟩ = ⟨["б"], found, .ok .shown⟩ := by
    have ha : found["a"]? = some (.string "б") := by simp [found]
    rw [Turn.report, perform, hsnippet.ofSource_eq]
    simp only [Snippet.report, Expr.report, Expr.eval, ha]
    rfl
  have hkept : (showing.perform false found).store = found := congrArg Report.store hreported
  have hfailed : Turn.report false ⟨asking, found⟩ =
      ⟨[], found, .error (.stopped error)⟩ := by
    have hwork : asking.work? = some (.expression (.identifier ⟨some 1, "b"⟩)) := by
      rw [work?, hasking]
      rfl
    exact Turn.report_of_reads false hwork .identifier (by simp [found])
  have hturns : turns false ∅ steps = [⟨storing, ∅⟩, ⟨showing, found⟩, ⟨asking, found⟩] := by
    simp only [steps, turns, hstored, hkept]
  obtain ⟨hreports, hliteral, hmade, hlines, -, -⟩ := strings_verbatim false steps
  rw [hturns] at hreports hmade
  have hword : Words steps ⟨.string, "б"⟩ :=
    ⟨storing, List.mem_cons_self, _, hstoring, by simp [Token.word]⟩
  obtain ⟨hshown, -⟩ := hlines (Turn.report false ⟨showing, found⟩) (by simp [← hreports])
  obtain ⟨-, hmessage⟩ := hlines (Turn.report false ⟨asking, found⟩) (by simp [← hreports])
  rw [hreported] at hshown
  rw [hfailed] at hmessage
  exact ⟨hturns, ⟨hword, hliteral _ hword⟩, (hmade ⟨showing, found⟩ (by simp)).1,
    ⟨hreported, hshown _ List.mem_cons_self⟩, hfailed, hmessage error rfl⟩

end Step

end Rech
