import Rech.Proofs.Run.Names

/-!
# What a run depends on

A run reads no name that does not occur in its program, and writes none but
those that are declared or assigned there. So it is the same run on two stores
that agree on the names of the program, and it leaves all other names as they
are.
-/

namespace Rech

/-- Two stores have the same of these names, with the same values. -/
def Store.Agree (names : List String) (store other : Store) : Prop :=
  ∀ name ∈ names, store[name]? = other[name]?

/-- Two runs show and come to the same, on stores that agree at the end. -/
structure Run.Agree (names : List String) (run twin : Run α) : Prop where
  events : run.events = twin.events
  outcome : run.outcome = twin.outcome
  store : Store.Agree names run.store twin.store

variable {names : List String} {store other : Store}

namespace Store.Agree

theorem mono (h : Agree names store other) (hsub : others ⊆ names) :
    Agree others store other :=
  fun name hname => h name (hsub hname)

theorem contains_eq (h : Agree names store other) (hname : name ∈ names) :
    store.contains name = other.contains name := by
  rw [Std.TreeMap.contains_eq_isSome_getElem?, Std.TreeMap.contains_eq_isSome_getElem?,
    h name hname]

theorem insert (h : Agree names store other) (name : String) (value : Value) :
    Agree names (store.insert name value) (other.insert name value) := by
  intro found hfound
  rw [Std.TreeMap.getElem?_insert, Std.TreeMap.getElem?_insert, h found hfound]

end Store.Agree

-- ---------------------------------------------------------------------------
-- Expressions
-- ---------------------------------------------------------------------------

theorem Expr.eval_agree {e : Expr} (h : Store.Agree e.names store other) :
    e.eval store = e.eval other := by
  induction e with
  | identifier name =>
    rw [Expr.eval, Expr.eval, h name.symbol List.mem_cons_self]
  | number | string | null | foreign => rfl
  | negate line operand ih => rw [Expr.eval, Expr.eval, ih h]
  | math line left operator right ihl ihr =>
    rw [Expr.eval, Expr.eval, ihl (h.mono (List.subset_append_left _ _)),
      ihr (h.mono (List.subset_append_right _ _))]
  | comparison line left operator right ihl ihr =>
    rw [Expr.eval, Expr.eval, ihl (h.mono (List.subset_append_left _ _)),
      ihr (h.mono (List.subset_append_right _ _))]

theorem Comparison.eval_agree {condition : Comparison}
    (h : Store.Agree condition.toExpr.names store other) :
    condition.eval store = condition.eval other := by
  rw [eval, eval, Expr.eval_agree (h.mono (List.subset_append_left _ _)),
    Expr.eval_agree (h.mono (List.subset_append_right _ _))]

mutual
theorem Choice.taken_agree : (first : Choice) →
    (∀ condition ∈ first.conditions, Store.Agree condition.toExpr.names store other) →
      first.taken store = first.taken other
  | .mk _ condition body otherwise => by
    intro h
    rw [Choice.conditions] at h
    obtain ⟨hcondition, hothers⟩ := List.forall_mem_cons.1 h
    rw [Choice.taken, Choice.taken, Comparison.eval_agree hcondition,
      otherwise.taken_agree hothers]

theorem Otherwise.taken_agree : (otherwise : Otherwise) →
    (∀ condition ∈ otherwise.conditions, Store.Agree condition.toExpr.names store other) →
      otherwise.taken store = otherwise.taken other
  | .nothing => fun _ => rfl
  | .block _ => fun _ => rfl
  | .choice chosen => chosen.taken_agree
end

-- ---------------------------------------------------------------------------
-- Statements
-- ---------------------------------------------------------------------------

namespace Run.Agree

theorem done (h : Store.Agree names store other) (a : α) :
    (Run.done store a).Agree names (Run.done other a) :=
  ⟨rfl, rfl, h⟩

theorem fail (h : Store.Agree names store other) (cause : EvalError.Cause) :
    (Run.fail store cause : Run α).Agree names (Run.fail other cause) :=
  ⟨rfl, rfl, h⟩

theorem given {next next' : α → Run β} (h : Store.Agree names store other)
    {result result' : Except EvalError.Cause α} (hresult : result = result')
    (hnext : ∀ a, (next a).Agree names (next' a)) :
    (Run.given store result next).Agree names (Run.given other result' next') := by
  subst hresult
  cases result with
  | error cause => exact fail h cause
  | ok a => exact hnext a

theorem located {run twin : Run α} (h : run.Agree names twin) (line : Option Int) :
    (run.located line).Agree names (twin.located line) :=
  ⟨h.events, by rw [Run.located, Run.located, h.outcome], h.store⟩

theorem after {run twin : Run α} (h : run.Agree names twin) (events : List Event) :
    (run.after events).Agree names (twin.after events) :=
  ⟨by rw [Run.after, Run.after, h.events], h.outcome, h.store⟩

end Run.Agree

theorem Assignment.agree_exec {assigned : Assignment} (h : Store.Agree names store other)
    (htarget : assigned.target.symbol ∈ names) (hvalue : assigned.value.names ⊆ names) :
    (assigned.exec store).Agree names (assigned.exec other) := by
  rw [exec, exec, h.contains_eq htarget]
  split
  · exact .given h (Expr.eval_agree (h.mono hvalue)) fun value => .done (h.insert _ value) _
  · exact .fail h _

namespace Stmt

theorem agree_expressions {s : Stmt} (h : Store.Agree names store other) (hs : s.names ⊆ names) :
    ∀ e ∈ s.expressions, Store.Agree e.names store other := by
  intro e he
  refine h.mono fun name hname => hs (List.mem_append_right _ ?_)
  exact List.mem_flatMap.2 ⟨e, he, hname⟩

theorem agree_taken {first : Choice} (h : Store.Agree names store other)
    (hs : (Stmt.choice first).names ⊆ names) : first.taken store = first.taken other :=
  first.taken_agree fun _ hcondition =>
    agree_expressions h hs _ (List.mem_map_of_mem hcondition)

/-- The step: what a statement does of its own, it does on both stores. -/
theorem agree_own {s : Stmt} (h : Store.Agree names store other) (hs : s.names ⊆ names) :
    (s.own store).Agree names (s.own other) := by
  have hvalue {e : Expr} (he : e ∈ s.expressions) : e.eval store = e.eval other :=
    Expr.eval_agree (agree_expressions h hs e he)
  have htarget : s.targets ⊆ names := fun name hname => hs (List.mem_append_left _ hname)
  cases s with
  | block inner => exact .done h _
  | choice first => exact .given h (agree_taken h hs) fun _ => .done h _
  | print line e => exact .given h (hvalue List.mem_cons_self) fun _ => ⟨rfl, rfl, h⟩
  | «return» line e =>
    cases e with
    | none => exact .done h _
    | some e => exact .given h (hvalue List.mem_cons_self) fun _ => .done h _
  | declaration declared =>
    rw [own, own, Declaration.exec, Declaration.exec, h.contains_eq (htarget List.mem_cons_self)]
    split
    · exact .fail h _
    · refine Assignment.agree_exec (h.insert _ _) (htarget (by simp [targets])) ?_
      exact fun name hname => hs (by simp [Stmt.names, targets, expressions, hname])
  | assignment assigned =>
    refine Assignment.agree_exec h (htarget List.mem_cons_self) ?_
    exact fun name hname => hs (by simp [Stmt.names, targets, expressions, hname])
  | expression e => exact .given h (hvalue List.mem_cons_self) fun _ => .done h _

theorem opened_agree {s : Stmt} (h : Store.Agree names store other) (hs : s.names ⊆ names) :
    s.opened store = s.opened other := by
  cases s with
  | choice first => rw [opened, opened, agree_taken h hs]
  | _ => rfl

end Stmt

-- ---------------------------------------------------------------------------
-- Runs
-- ---------------------------------------------------------------------------

namespace Task

theorem agree_own {task : Task} (h : Store.Agree names store other)
    (hs : task.statement.names ⊆ names) : (own store task).Agree names (own other task) :=
  (Stmt.agree_own h hs).located _

theorem opened_agree {task : Task} (h : Store.Agree names store other)
    (hs : task.statement.names ⊆ names) : opened store task = opened other task := by
  rw [opened, opened, Stmt.opened_agree h hs]

/-- The run: both go through the same tasks, one step at a time. -/
theorem agree_execAll (trace : Bool) (h : Store.Agree names store other)
    (hs : ∀ s ∈ statements tasks, s.names ⊆ names) :
    (execAll trace store tasks).Agree names (execAll trace other tasks) := by
  induction store, tasks using steps_induction generalizing other with
  | nil store => exact .done h _
  | stop store task others hstops =>
    have hown := agree_own h (hs task.statement List.mem_cons_self)
    have hstops' := hown.outcome ▸ hstops
    rw [execAll_cons, execAll_cons, Run.andThen_of_not_normal hstops,
      Run.andThen_of_not_normal hstops']
    exact hown.after _
  | step store task others hpasses ih =>
    have htask := hs task.statement List.mem_cons_self
    have hown := agree_own h htask
    have hpasses' := hown.outcome ▸ hpasses
    have hothers := ih hown.store fun s hmem =>
      hs s (List.mem_cons_of_mem _ ((statements_opened_sublist store task others).mem hmem))
    rw [execAll_cons, execAll_cons, Run.andThen_of_normal hpasses, Run.andThen_of_normal hpasses',
      ← opened_agree h htask, hown.events]
    exact (hothers.after _).after _

end Task

theorem Assignment.getElem?_exec {assigned : Assignment} (h : assigned.target.symbol ≠ name) :
    (assigned.exec store).store[name]? = store[name]? := by
  rcases assigned.exec_cases store with ⟨-, h'⟩ | ⟨-, ⟨cause, -, h'⟩ | ⟨value, -, h'⟩⟩ <;> rw [h']
  · rfl
  · rfl
  · simp [Run.done, Std.TreeMap.getElem?_insert, h]

theorem Stmt.getElem?_own {s : Stmt} (h : name ∉ s.targets) :
    (s.own store).store[name]? = store[name]? := by
  cases s with
  | declaration declared =>
    simp only [targets, List.mem_cons, List.not_mem_nil, or_false, not_or] at h
    rw [own, Declaration.exec]
    split
    · rfl
    · rw [Assignment.getElem?_exec (Ne.symm h.2), Std.TreeMap.getElem?_insert]
      simp [Ne.symm h.1]
  | assignment assigned => exact Assignment.getElem?_exec (Ne.symm (by simpa [targets] using h))
  | _ => rw [store_own rfl]

theorem Visit.Threads.getElem?_eq (h : Threads found visits left)
    (hname : ∀ visit ∈ visits, name ∉ visit.statement.targets) : left[name]? = found[name]? := by
  induction h with
  | nil => rfl
  | @cons visits left visit _ ih =>
    obtain ⟨hvisit, hothers⟩ := List.forall_mem_cons.1 hname
    rw [ih hothers]
    exact Stmt.getElem?_own hvisit

namespace Program

theorem agree_exec {program : Program} (trace : Bool)
    (h : Store.Agree program.names store other) :
    (program.exec trace store).Agree program.names (program.exec trace other) := by
  rw [exec_eq, exec_eq]
  refine Task.agree_execAll trace h fun s hs name hname => ?_
  rw [statements_tasks] at hs
  exact List.mem_flatMap.2 ⟨s, hs, hname⟩

theorem getElem?_exec {program : Program} (trace : Bool) (store : Store)
    (h : name ∉ program.targets) : (program.exec trace store).store[name]? = store[name]? := by
  refine (program.threads_visits trace store).getElem?_eq fun visit hvisit hname => h ?_
  exact List.mem_flatMap.2 ⟨_, mem_statements_of_mem_visits hvisit, hname⟩

/-- On two stores that have the names of a program alike, it runs alike: it shows
the same, it ends in the same, and it leaves its names alike. What is neither
declared nor assigned in it stays as it was in each of the stores, also when the
program fails. -/
theorem exec_depends_on_names (program : Program) (trace : Bool) (store other : Store)
    (h : ∀ name ∈ program.names, store[name]? = other[name]?) :
    let run := program.exec trace store
    let twin := program.exec trace other
    run.events = twin.events ∧ run.outcome = twin.outcome ∧
    (∀ name ∈ program.names, run.store[name]? = twin.store[name]?) ∧
    ∀ name, name ∉ program.targets →
      run.store[name]? = store[name]? ∧ twin.store[name]? = other[name]? := by
  intro run twin
  obtain ⟨events, outcome, stores⟩ := agree_exec trace h
  refine ⟨events, outcome, stores, fun name hname => ⟨?_, ?_⟩⟩
  · exact getElem?_exec trace store hname
  · exact getElem?_exec trace other hname

/-- `пусть a = b; b = a; напечатать c;` fails at its end. -/
theorem exec_depends_on_names_failing :
    let a : Identifier := ⟨some 1, "a"⟩
    let b : Identifier := ⟨some 1, "b"⟩
    let program : Program := ⟨[.declaration ⟨some 1, a, ⟨some 1, a, .identifier b⟩⟩,
      .assignment ⟨some 2, b, .identifier a⟩, .print (some 3) (.identifier ⟨some 3, "c"⟩)]⟩
    let other : Store := (∅ : Store).insert "b" .null
    let store : Store := other.insert "d" .unset
    (∀ name ∈ program.names, store[name]? = other[name]?) ∧
      (program.exec false store).outcome.isOk = false ∧
      (program.exec false store).outcome = (program.exec false other).outcome ∧
      (program.exec false store).store["a"]? = (program.exec false other).store["a"]? ∧
      (program.exec false store).store["d"]? = some .unset ∧
      (program.exec false other).store["d"]? = none := by
  intro a b program other store
  have h : ∀ name ∈ program.names, store[name]? = other[name]? := by decide
  have hfails : (program.exec false store).outcome.isOk = false := by decide +kernel
  obtain ⟨-, outcome, stores, frame⟩ := exec_depends_on_names program false store other h
  obtain ⟨kept, absent⟩ := frame "d" (by decide)
  exact ⟨h, hfails, outcome, stores "a" (by decide), kept, absent⟩

end Program

end Rech
