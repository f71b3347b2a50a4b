import Rech.Proofs.Run.Chains
import Rech.Proofs.Run.Failing

/-!
# Names

A declaration of a name that is not in the store brings it there, even if its
first value then fails, and nothing else brings a name into a store or takes
one out. A declaration of a name that is there fails, and so does whatever
reads or assigns a name that is not; what fails in this way leaves the store as
it finds it.
-/

namespace Rech

-- ---------------------------------------------------------------------------
-- Reading a name
-- ---------------------------------------------------------------------------

/-- Evaluating an expression comes to the name: the operands before it have
values. -/
inductive Expr.Reads (store : Store) : Expr → String → Prop
  | identifier {name : Identifier} : Reads store (.identifier name) name.symbol
  | negate {line : Option Int} (operand : Reads store e name) : Reads store (.negate line e) name
  | mathLeft {line : Option Int} (left : Reads store l name) :
      Reads store (.math line l sign r) name
  | mathRight {line : Option Int} (left : l.eval store = .ok value) (right : Reads store r name) :
      Reads store (.math line l sign r) name
  | comparisonLeft {line : Option Int} (left : Reads store l name) :
      Reads store (.comparison line l sign r) name
  | comparisonRight {line : Option Int} (left : l.eval store = .ok value)
      (right : Reads store r name) : Reads store (.comparison line l sign r) name

theorem Expr.Reads.eval_of_not_mem (h : Expr.Reads store e name) (hname : name ∉ store) :
    e.eval store = .error (.unknownName name) := by
  induction h with
  | identifier => rw [Expr.eval, Std.TreeMap.getElem?_eq_none hname]
  | negate _ ih => rw [Expr.eval, ih hname]; rfl
  | mathLeft _ ih => rw [Expr.eval, ih hname]; rfl
  | mathRight left _ ih => rw [Expr.eval, left, ih hname]; rfl
  | comparisonLeft _ ih => rw [Expr.eval, ih hname]; rfl
  | comparisonRight left _ ih => rw [Expr.eval, left, ih hname]; rfl

-- ---------------------------------------------------------------------------
-- Statements
-- ---------------------------------------------------------------------------

def Stmt.declares? : Stmt → Option String
  | .declaration declared => some declared.identifier.symbol
  | _ => none

/-- The store in which a statement evaluates its expressions. A name that it
declares is already there. -/
def Stmt.ground (store : Store) : Stmt → Store
  | .declaration declared =>
    if store.contains declared.identifier.symbol then store
    else store.insert declared.identifier.symbol .unset
  | _ => store

def Assignment.evaluated (store : Store) (assigned : Assignment) : List Expr :=
  if store.contains assigned.target.symbol then [assigned.value] else []

def Stmt.evaluated (store : Store) : Stmt → List Expr
  | .block _ => []
  | .choice first => (first.tested store).map Comparison.toExpr
  | .print _ value => [value]
  | .return _ value => value.toList
  | .declaration declared =>
    if store.contains declared.identifier.symbol then []
    else declared.init.evaluated (store.insert declared.identifier.symbol .unset)
  | .assignment assigned => assigned.evaluated store
  | .expression value => [value]

def Stmt.Reads (store : Store) (s : Stmt) (name : String) : Prop :=
  ∃ e ∈ s.evaluated store, e.Reads (s.ground store) name

/-- The names that a statement comes to assign. -/
inductive Stmt.Assigns (store : Store) : Stmt → String → Prop
  | assignment {assigned : Assignment} : Assigns store (.assignment assigned) assigned.target.symbol
  | declaration {declared : Declaration} (fresh : declared.identifier.symbol ∉ store) :
      Assigns store (.declaration declared) declared.init.target.symbol

theorem Comparison.eval_of_toExpr {condition : Comparison}
    (h : condition.toExpr.eval store = .error cause) : condition.eval store = .error cause := by
  rw [Comparison.eval_toExpr] at h
  cases hcondition : condition.eval store with
  | error own =>
    rw [hcondition] at h
    obtain rfl : own = cause := Except.error.inj h
    rfl
  | ok holds =>
    rw [hcondition] at h
    cases h

theorem Assignment.exec_of_error {assigned : Assignment} (hmem : e ∈ assigned.evaluated store)
    (h : e.eval store = .error cause) : assigned.exec store = .fail store cause := by
  rw [evaluated] at hmem
  split at hmem
  next htarget =>
    obtain rfl := List.mem_singleton.1 hmem
    rw [exec, if_pos htarget, h]
    rfl
  next => cases hmem

theorem Assignment.exec_of_not_mem {assigned : Assignment} (h : assigned.target.symbol ∉ store) :
    assigned.exec store = .fail store (.unknownName assigned.target.symbol) := by
  rw [exec, if_neg (mt Std.TreeMap.mem_iff_contains.2 h)]

theorem Run.given_of_error {store : Store} {result : Except EvalError.Cause α}
    {next : α → Run β} (h : result = .error cause) :
    given store result next = fail store cause := by
  rw [h]
  rfl

theorem Stmt.own_of_error {s : Stmt} (hmem : e ∈ s.evaluated store)
    (h : e.eval (s.ground store) = .error cause) :
    s.own store = .fail (s.ground store) cause := by
  cases s with
  | block inner => cases hmem
  | choice first =>
    obtain ⟨condition, htested, rfl⟩ := List.mem_map.1 hmem
    have htaken := first.taken_of_tested (Comparison.eval_of_toExpr h) htested
    exact Run.given_of_error htaken
  | print line value | expression value =>
    obtain rfl := List.mem_singleton.1 hmem
    exact Run.given_of_error h
  | «return» line value =>
    obtain rfl := Option.mem_toList.1 hmem
    exact Run.given_of_error h
  | declaration declared =>
    simp only [evaluated, ground] at hmem h ⊢
    rw [own, Declaration.exec]
    split at hmem
    next => cases hmem
    next hdeclared =>
      simp only [if_neg hdeclared] at h ⊢
      exact Assignment.exec_of_error hmem h
  | assignment assigned => exact Assignment.exec_of_error hmem h

theorem Stmt.own_of_reads {s : Stmt} (h : s.Reads store name) (hname : name ∉ s.ground store) :
    s.own store = .fail (s.ground store) (.unknownName name) := by
  obtain ⟨e, hmem, hreads⟩ := h
  exact own_of_error hmem (hreads.eval_of_not_mem hname)

theorem Stmt.own_of_assigns {s : Stmt} (h : s.Assigns store name)
    (hname : name ∉ s.ground store) :
    s.own store = .fail (s.ground store) (.unknownName name) := by
  cases h with
  | assignment => exact Assignment.exec_of_not_mem hname
  | declaration fresh =>
    have hdeclared := mt Std.TreeMap.mem_iff_contains.2 fresh
    simp only [ground, if_neg hdeclared] at hname ⊢
    rw [own, Declaration.exec, if_neg hdeclared]
    exact Assignment.exec_of_not_mem hname

theorem Stmt.own_of_declares {s : Stmt} (h : s.declares? = some name) (hname : name ∈ store) :
    s.own store = .fail store (.repeatedDeclaration name) := by
  cases s with
  | declaration declared =>
    obtain rfl : declared.identifier.symbol = name := Option.some.inj h
    rw [own, Declaration.exec, if_pos (Std.TreeMap.mem_iff_contains.1 hname)]
  | _ => cases h

-- ---------------------------------------------------------------------------
-- The names of a store
-- ---------------------------------------------------------------------------

theorem Run.store_given {store : Store} {result : Except EvalError.Cause α} {next : α → Run β}
    (h : ∀ a, (next a).store = store) : (given store result next).store = store := by
  cases result with
  | error cause => rfl
  | ok a => exact h a

theorem Stmt.store_own {s : Stmt} (h : s.targets = []) : (s.own store).store = store := by
  cases s with
  | block inner => rfl
  | choice first | print line e | expression e => exact Run.store_given fun _ => rfl
  | «return» line e =>
    cases e with
    | none => rfl
    | some e => exact Run.store_given fun _ => rfl
  | declaration declared | assignment assigned => cases h

theorem Assignment.mem_exec (store : Store) (assigned : Assignment) (name : String) :
    name ∈ (assigned.exec store).store ↔ name ∈ store := by
  rcases assigned.exec_cases store with ⟨-, h⟩ | ⟨known, ⟨cause, -, h⟩ | ⟨value, -, h⟩⟩ <;> rw [h]
  · exact Iff.rfl
  · exact Iff.rfl
  · rw [Run.done, Std.TreeMap.mem_insert, Std.compare_eq_iff_eq, or_iff_right_iff_imp]
    rintro rfl
    exact known

theorem Stmt.mem_own (store : Store) (s : Stmt) (name : String) :
    name ∈ (s.own store).store ↔ name ∈ store ∨ s.declares? = some name := by
  cases s with
  | declaration declared =>
    rw [own, Declaration.exec]
    split
    next hdeclared =>
      simp only [Run.fail, declares?, Option.some.injEq, iff_self_or]
      rintro rfl
      exact hdeclared
    next =>
      simp only [Assignment.mem_exec, Std.TreeMap.mem_insert, Std.compare_eq_iff_eq, declares?,
        Option.some.injEq, or_comm]
  | assignment assigned => simp [own, Assignment.mem_exec, declares?]
  | _ =>
    rw [store_own rfl]
    simp [declares?]

-- ---------------------------------------------------------------------------
-- Visits
-- ---------------------------------------------------------------------------

/-- A visit to a declaration whose name is new. -/
def Visit.Introduces (visit : Visit) (name : String) : Prop :=
  visit.statement.declares? = some name ∧ name ∉ visit.store

theorem Visit.mem_own (visit : Visit) (name : String) :
    name ∈ visit.own.store ↔ name ∈ visit.store ∨ visit.Introduces name := by
  show name ∈ (visit.statement.own visit.store).store ↔ _
  rw [Stmt.mem_own, Introduces]
  by_cases h : name ∈ visit.store <;> simp [h]

/-- Each visit finds the store that the one before it leaves. -/
inductive Visit.Threads : Store → List Visit → Store → Prop
  | nil : Threads found [] found
  | cons {visit : Visit} (others : Threads visit.own.store visits left) :
      Threads visit.store (visit :: visits) left

namespace Visit.Threads

theorem append (h : Threads found visits middle) (h' : Threads middle others left) :
    Threads found (visits ++ others) left := by
  induction h with
  | nil => exact h'
  | cons _ ih => exact .cons (ih h')

theorem of_append {visit : Visit} (h : Threads found (earlier ++ visit :: later) left) :
    Threads found earlier visit.store := by
  induction earlier generalizing found with
  | nil =>
    cases h
    exact .nil
  | cons first rest ih =>
    cases h with
    | cons others => exact .cons (ih others)

theorem mem_iff (h : Threads found visits left) (name : String) :
    name ∈ left ↔ name ∈ found ∨ ∃ visit ∈ visits, visit.Introduces name := by
  induction h with
  | nil => simp
  | cons _ ih => simp only [ih, mem_own, List.mem_cons, exists_eq_or_imp, or_assoc]

/-- No name is introduced twice. -/
theorem pairwise (h : Threads found visits left) :
    visits.Pairwise fun visit later => ∀ name, visit.Introduces name → ¬later.Introduces name := by
  induction h with
  | nil => exact .nil
  | @cons visits left visit others ih =>
    refine .cons (fun later hmem name hvisit hlater => hlater.2 ?_) ih
    obtain ⟨before, after, rfl⟩ := List.append_of_mem hmem
    exact (others.of_append.mem_iff name).2 (.inl ((visit.mem_own name).2 (.inr hvisit)))

end Visit.Threads

theorem Task.threads_visits (trace : Bool) (store : Store) (tasks : List Task) :
    Visit.Threads store (visits store tasks) (execAll trace store tasks).store := by
  induction store, tasks using steps_induction with
  | nil store =>
    rw [visits_nil]
    exact .nil
  | stop store task others h =>
    rw [visits_cons_of_not_normal h, execAll_cons, Run.andThen_of_not_normal h]
    have hlast : Visit.Threads (Visit.own ⟨task, store⟩).store [] (own store task).store := .nil
    exact .cons hlast
  | step store task others h ih =>
    rw [visits_cons_of_normal h, execAll_cons, Run.andThen_of_normal h]
    have hothers : Visit.Threads (Visit.own ⟨task, store⟩).store _ _ := ih
    exact .cons hothers

theorem Program.threads_visits (trace : Bool) (store : Store) (program : Program) :
    Visit.Threads store (program.visits store) (program.exec trace store).store := by
  rw [exec_eq]
  exact Task.threads_visits trace store program.tasks

theorem Visit.Ends.of_mem {visit : Visit} (h : Ends run visits) (hmem : visit ∈ visits)
    (hstops : ¬visit.Passed) :
    visits.getLast? = some visit ∧ run.outcome = visit.own.outcome ∧
      run.store = visit.own.store := by
  cases h with
  | normal passed _ => exact absurd (passed visit hmem) hstops
  | @stopped earlier last passed _ outcome store =>
    rcases List.mem_append.1 hmem with hmem | hmem
    · exact absurd (passed visit hmem) hstops
    · obtain rfl := List.mem_singleton.1 hmem
      exact ⟨List.getLast?_concat, outcome, store⟩

/-- A run that fails does so as its last visit, and leaves what that leaves. -/
theorem Visit.Ends.exists_last (h : Ends run visits) (hfails : run.outcome = .error error) :
    ∃ last, visits.getLast? = some last ∧ last.own.outcome = .error error ∧
      run.store = last.own.store := by
  cases h with
  | normal _ outcome => cases outcome.symm.trans hfails
  | stopped _ _ outcome store =>
    exact ⟨_, List.getLast?_concat, outcome.symm.trans hfails, store⟩

theorem Program.ends_of_fail (trace : Bool) {program : Program} {visit : Visit}
    (hmem : visit ∈ program.visits store)
    (hown : visit.statement.own visit.store = .fail found cause) :
    (program.visits store).getLast? = some visit ∧ visit.own.events = [] ∧
      (program.exec trace store).store = found ∧
      (program.exec trace store).outcome = .error ⟨cause, visit.line⟩ := by
  have hfail : visit.own = (Run.fail found cause).located visit.line :=
    congrArg (Run.located visit.line) hown
  have hstops : ¬visit.Passed := by
    rw [Visit.Passed, hfail]
    nofun
  obtain ⟨hlast, houtcome, hstore⟩ := (program.ends_exec trace store).of_mem hmem hstops
  rw [hfail] at houtcome hstore ⊢
  exact ⟨hlast, rfl, hstore, houtcome⟩

end Rech
