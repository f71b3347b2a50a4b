import Rech.Proofs.Run.Visits

/-!
# How a run fails

A run fails as the last statement it executes fails of its own: a name is
unknown or declared before, or one of its expressions has no value. An
expression all of whose operators exist has no value only where a name is
unknown or an operand is no number.
-/

namespace Rech

-- ---------------------------------------------------------------------------
-- Expressions
-- ---------------------------------------------------------------------------

/-- What a program may do wrong. The other causes are those of a tree that no
program is. -/
inductive EvalError.Cause.Ordinary : EvalError.Cause → Prop
  | unknownName (name : String) : Ordinary (.unknownName name)
  | repeatedDeclaration (name : String) : Ordinary (.repeatedDeclaration name)
  | mathOnNonNumbers : Ordinary .mathOnNonNumbers
  | comparisonOfNonNumbers : Ordinary .comparisonOfNonNumbers
  | negationOfNonNumber : Ordinary .negationOfNonNumber

inductive EvalError.OrdinaryMessage : String → Prop
  | unknownName (name : String) : OrdinaryMessage ("Неизвестный идентификатор " ++ name)
  | repeatedDeclaration (name : String) :
      OrdinaryMessage ("Повторное объявление переменной " ++ name)
  | mathOnNonNumbers : OrdinaryMessage "Математические операции возможны только с числами"
  | comparisonOfNonNumbers : OrdinaryMessage "Неправильное сравнение"
  | negationOfNonNumber : OrdinaryMessage "Невозможно выполнить математическое отрицание"

theorem EvalError.Cause.Ordinary.message {cause : EvalError.Cause} (h : cause.Ordinary) :
    OrdinaryMessage cause.message := by
  cases h with
  | unknownName name => exact .unknownName name
  | repeatedDeclaration name => exact .repeatedDeclaration name
  | mathOnNonNumbers => exact .mathOnNonNumbers
  | comparisonOfNonNumbers => exact .comparisonOfNonNumbers
  | negationOfNonNumber => exact .negationOfNonNumber

/-- Every node is an expression, and every operator exists. -/
inductive Expr.Evaluable : Expr → Prop
  | identifier {name : Identifier} : Evaluable (.identifier name)
  | number {line : Option Int} {value : Binary64} : Evaluable (.number line value)
  | string {line : Option Int} : Evaluable (.string line text)
  | null {line : Option Int} : Evaluable (.null line spelling)
  | negate {line : Option Int} (operand : Evaluable e) : Evaluable (.negate line e)
  | math {line : Option Int} (left : Evaluable l)
      (operator : (Value.mathOperation? sign).isSome) (right : Evaluable r) :
      Evaluable (.math line l sign r)
  | comparison {line : Option Int} (left : Evaluable l)
      (operator : (Value.comparisonOperation? sign).isSome) (right : Evaluable r) :
      Evaluable (.comparison line l sign r)

theorem bind_eq_ok {first : Except ε α} {next : α → Except ε β} {b : β} :
    first >>= next = .ok b ↔ ∃ a, first = .ok a ∧ next a = .ok b := by
  cases first <;> simp [bind, Except.bind]

theorem bind_eq_error {first : Except ε α} {next : α → Except ε β} {e : ε} :
    first >>= next = .error e ↔ first = .error e ∨ ∃ a, first = .ok a ∧ next a = .error e := by
  cases first <;> simp [bind, Except.bind]

namespace Value

open EvalError.Cause (Ordinary)

theorem math_error (operator : (mathOperation? sign).isSome)
    (h : math sign a b = .error cause) : cause.Ordinary := by
  unfold math at h
  split at h
  · split at h
    · cases h
    next hnone => simp [hnone] at operator
  · cases h
    exact .mathOnNonNumbers

theorem compare_error (operator : (comparisonOperation? sign).isSome)
    (h : compare sign a b = .error cause) : cause.Ordinary := by
  unfold compare at h
  split at h
  · split at h
    · cases h
    next hnone => simp [hnone] at operator
  · cases h
    exact .comparisonOfNonNumbers

theorem negate_error (h : negate a = .error cause) : cause.Ordinary := by
  unfold negate at h
  split at h
  · cases h
  · cases h
    exact .negationOfNonNumber

end Value

theorem Expr.Evaluable.ordinary (h : Expr.Evaluable e) (herror : e.eval store = .error cause) :
    cause.Ordinary := by
  induction h generalizing cause with
  | identifier =>
    rw [Expr.eval] at herror
    split at herror
    · cases herror
    · cases herror
      exact .unknownName _
  | number | string | null => cases herror
  | negate _ ih =>
    rcases bind_eq_error.1 herror with herror | ⟨a, -, herror⟩
    · exact ih herror
    · exact Value.negate_error herror
  | math _ operator _ ihl ihr =>
    rcases bind_eq_error.1 herror with herror | ⟨a, -, herror⟩
    · exact ihl herror
    rcases bind_eq_error.1 herror with herror | ⟨b, -, herror⟩
    · exact ihr herror
    · exact Value.math_error operator herror
  | comparison _ operator _ ihl ihr =>
    rcases bind_eq_error.1 herror with herror | ⟨a, -, herror⟩
    · exact ihl herror
    rcases bind_eq_error.1 herror with herror | ⟨b, -, herror⟩
    · exact ihr herror
    rcases bind_eq_error.1 herror with herror | ⟨holds, -, herror⟩
    · exact Value.compare_error operator herror
    · cases herror

theorem Comparison.eval_toExpr (store : Store) (condition : Comparison) :
    condition.toExpr.eval store = (condition.eval store).map .boolean := by
  rw [toExpr, Expr.eval, eval]
  cases condition.left.eval store with
  | error cause => rfl
  | ok a =>
    cases condition.right.eval store with
    | error cause => rfl
    | ok b =>
      show (Value.compare condition.operator a b).bind _ =
        (Value.compare condition.operator a b).map Value.boolean
      cases Value.compare condition.operator a b <;> rfl

-- ---------------------------------------------------------------------------
-- Statements
-- ---------------------------------------------------------------------------

mutual
theorem Choice.taken_error : (first : Choice) → first.taken store = .error cause →
    ∃ condition ∈ first.conditions, condition.eval store = .error cause
  | .mk _ condition body otherwise => by
    intro h
    rw [Choice.taken] at h
    rw [Choice.conditions]
    split at h
    · cases h
    · obtain ⟨other, hmem, herror⟩ := otherwise.taken_error h
      exact ⟨other, List.mem_cons_of_mem _ hmem, herror⟩
    next herror =>
      cases h
      exact ⟨condition, List.mem_cons_self, herror⟩

theorem Otherwise.taken_error : (otherwise : Otherwise) → otherwise.taken store = .error cause →
    ∃ condition ∈ otherwise.conditions, condition.eval store = .error cause
  | .nothing => by rintro ⟨⟩
  | .block chosen => by rintro ⟨⟩
  | .choice chosen => chosen.taken_error
end

theorem Choice.exists_error_of_taken (first : Choice) (h : first.taken store = .error cause) :
    ∃ e ∈ (Stmt.choice first).expressions, e.eval store = .error cause := by
  obtain ⟨condition, hmem, herror⟩ := first.taken_error h
  refine ⟨_, List.mem_map_of_mem hmem, ?_⟩
  rw [Comparison.eval_toExpr, herror]
  rfl

/-- Why a statement may fail of its own. -/
inductive Stmt.Fails (s : Stmt) : EvalError.Cause → Prop
  | unknownName (name : String) : Fails s (.unknownName name)
  | repeatedDeclaration (name : String) : Fails s (.repeatedDeclaration name)
  | expression (mem : e ∈ s.expressions) (evaluates : e.eval store = .error cause) : Fails s cause

theorem Run.outcome_given_error {store : Store} {result : Except EvalError.Cause α}
    {next : α → Run β} (h : (given store result next).outcome = .error error) :
    (∃ cause, result = .error cause ∧ error = ⟨cause, none⟩) ∨
      ∃ a, (next a).outcome = .error error := by
  cases result with
  | error cause => exact .inl ⟨cause, rfl, (Except.error.inj h).symm⟩
  | ok a => exact .inr ⟨a, h⟩

theorem Run.outcome_located_error {run : Run α} (h : (run.located line).outcome = .error error) :
    ∃ own, run.outcome = .error own ∧ error = ⟨own.cause, own.line <|> line⟩ := by
  obtain ⟨events, store, outcome⟩ := run
  cases outcome with
  | error own => exact ⟨own, rfl, (Except.error.inj h).symm⟩
  | ok a => cases h

theorem Assignment.exec_error {assigned : Assignment}
    (h : (assigned.exec store).outcome = .error error) :
    ∃ cause, error = ⟨cause, none⟩ ∧
      ((∃ name, cause = .unknownName name) ∨ assigned.value.eval store = .error cause) := by
  rcases assigned.exec_cases store with ⟨-, hexec⟩ | ⟨-, ⟨cause, hvalue, hexec⟩ | ⟨value, -, hexec⟩⟩
  · cases hexec ▸ h
    exact ⟨_, rfl, .inl ⟨_, rfl⟩⟩
  · cases hexec ▸ h
    exact ⟨cause, rfl, .inr hvalue⟩
  · cases hexec ▸ h

/-- A statement fails without a line: it is given one by those around it. -/
theorem Stmt.own_error {s : Stmt} (h : (s.own store).outcome = .error error) :
    ∃ cause, error = ⟨cause, none⟩ ∧ s.Fails cause := by
  cases s with
  | block inner => cases h
  | choice first =>
    rcases Run.outcome_given_error h with ⟨cause, htaken, rfl⟩ | ⟨body, ⟨⟩⟩
    obtain ⟨e, hmem, herror⟩ := first.exists_error_of_taken htaken
    exact ⟨cause, rfl, .expression hmem herror⟩
  | print line e =>
    rcases Run.outcome_given_error h with ⟨cause, he, rfl⟩ | ⟨value, ⟨⟩⟩
    exact ⟨cause, rfl, .expression List.mem_cons_self he⟩
  | «return» line e =>
    cases e with
    | none => cases h
    | some e =>
      rcases Run.outcome_given_error h with ⟨cause, he, rfl⟩ | ⟨value, ⟨⟩⟩
      exact ⟨cause, rfl, .expression List.mem_cons_self he⟩
  | declaration declared =>
    rw [Stmt.own, Declaration.exec] at h
    split at h
    · cases h
      exact ⟨_, rfl, .repeatedDeclaration _⟩
    · obtain ⟨cause, rfl, ⟨name, rfl⟩ | hvalue⟩ := Assignment.exec_error h
      · exact ⟨_, rfl, .unknownName name⟩
      · exact ⟨cause, rfl, .expression List.mem_cons_self hvalue⟩
  | assignment assigned =>
    obtain ⟨cause, rfl, ⟨name, rfl⟩ | hvalue⟩ := Assignment.exec_error h
    · exact ⟨_, rfl, .unknownName name⟩
    · exact ⟨cause, rfl, .expression List.mem_cons_self hvalue⟩
  | expression e =>
    rcases Run.outcome_given_error h with ⟨cause, he, rfl⟩ | ⟨value, ⟨⟩⟩
    exact ⟨cause, rfl, .expression List.mem_cons_self he⟩

-- ---------------------------------------------------------------------------
-- Programs
-- ---------------------------------------------------------------------------

/-- A run that fails has executed a statement that fails of its own, as its last
one, and reports it at the line of that statement or of one around it. -/
theorem Program.exists_failing {program : Program} {store : Store}
    (h : (program.exec trace store).outcome = .error error) :
    ∃ earlier last cause, program.visits store = earlier ++ [last] ∧
      (∀ visit ∈ earlier, visit.Passed) ∧ last.statement.Fails cause ∧
        error = ⟨cause, last.line⟩ := by
  have hends := program.ends_exec trace store
  generalize program.visits store = visits at hends
  cases hends with
  | normal _ outcome => cases h.symm.trans outcome
  | @stopped earlier last passed _ outcome _ =>
    obtain ⟨own, hown, rfl⟩ := Run.outcome_located_error (outcome.symm.trans h)
    obtain ⟨cause, rfl, hfails⟩ := Stmt.own_error hown
    exact ⟨earlier, last, cause, rfl, passed, hfails, rfl⟩

structure Stmt.Runnable (s : Stmt) : Prop where
  line : s.line.isSome
  evaluable : ∀ e ∈ s.expressions, e.Evaluable

theorem Stmt.Runnable.ordinary {s : Stmt} (h : s.Runnable) (hfails : s.Fails cause) :
    cause.Ordinary := by
  cases hfails with
  | unknownName name => exact .unknownName name
  | repeatedDeclaration name => exact .repeatedDeclaration name
  | expression mem evaluates => exact (h.evaluable _ mem).ordinary evaluates

/-- What a program is to end in: a result, or something done wrong at the line
of one of its statements. -/
def Program.EndsWell (program : Program) : Except EvalError α → Prop
  | .ok _ => True
  | .error error => error.cause.Ordinary ∧ EvalError.OrdinaryMessage error.cause.message ∧
      ∃ s ∈ program.statements, ∃ line, s.line = some line ∧ error.line = some line

theorem Program.exec_endsWell {program : Program} (h : ∀ s ∈ program.statements, s.Runnable)
    (trace : Bool) (store : Store) : program.EndsWell (program.exec trace store).outcome := by
  cases houtcome : (program.exec trace store).outcome with
  | ok completion => trivial
  | error error =>
    obtain ⟨earlier, last, cause, hvisits, -, hfails, rfl⟩ := exists_failing houtcome
    have hmem : last.statement ∈ program.statements := by
      refine (program.visits_sublist store).mem ?_
      simp [hvisits]
    have hlast := h _ hmem
    obtain ⟨line, hline⟩ := Option.isSome_iff_exists.1 hlast.line
    have hordinary := hlast.ordinary hfails
    refine ⟨hordinary, hordinary.message, last.statement, hmem, line, hline, ?_⟩
    simp [Task.line, hline]

end Rech
