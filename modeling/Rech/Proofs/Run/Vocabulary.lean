import Rech.Proofs.Grammar.Vocabulary
import Rech.Proofs.Run.Names
import Rech.Proofs.Run.Returning

/-!
# The words of a run

No run makes a string. Every string that a tree made of given words stores, shows
or returns is one of the words, and every name and operator in an error is. So
what is shown stays in its line if the words do.
-/

namespace Rech

open Token (Word)

-- ---------------------------------------------------------------------------
-- What is made of words
-- ---------------------------------------------------------------------------

section
variable (words : Word → Prop)

/-- A string that is such a word, or no string. -/
def Value.MadeOf : Value → Prop
  | .string text => words ⟨.string, text⟩
  | _ => True

def Store.MadeOf (store : Store) : Prop :=
  ∀ (name : String) (value : Value), store[name]? = some value → value.MadeOf words

def Completion.MadeOf (completion : Completion) : Prop :=
  ∀ value ∈ completion.value?, value.MadeOf words

def Event.MadeOf : Event → Prop
  | .executing _ kind => Text.InLine kind
  | .printed value | .result value => value.MadeOf words
  | _ => True

def EvalError.Cause.MadeOf : EvalError.Cause → Prop
  | .unknownName name | .repeatedDeclaration name => words ⟨.identifier, name⟩
  | .unknownMathOperator operator => words ⟨.math, operator⟩
  | .unknownComparisonOperator operator => words ⟨.comparison, operator⟩
  | .notAValue _ => False
  | _ => True

structure Run.MadeOf (holds : α → Prop) (run : Run α) : Prop where
  events : ∀ event ∈ run.events, event.MadeOf words
  store : run.store.MadeOf words
  result : ∀ a, run.outcome = .ok a → holds a
  cause : ∀ error, run.outcome = .error error → error.cause.MadeOf words

end

variable {words : Word → Prop} {store : Store}

-- ---------------------------------------------------------------------------
-- Expressions
-- ---------------------------------------------------------------------------

theorem Value.madeOf_unset : Value.MadeOf words .unset := trivial

theorem Store.madeOf_empty : Store.MadeOf words ∅ := by
  intro name value h
  simp at h

theorem Store.MadeOf.insert (h : Store.MadeOf words store) (hvalue : value.MadeOf words)
    (name : String) : Store.MadeOf words (store.insert name value) := by
  intro other found hfound
  rw [Std.TreeMap.getElem?_insert] at hfound
  split at hfound
  · obtain rfl := Option.some.inj hfound
    exact hvalue
  · exact h other found hfound

theorem Store.MadeOf.declare (h : Store.MadeOf words store) (name : String) :
    Store.MadeOf words (store.insert name .unset) :=
  h.insert Value.madeOf_unset name

namespace Value

theorem madeOf_math (h : math operator a b = .ok value) : value.MadeOf words := by
  unfold math at h
  split at h
  · split at h <;> cases h
    trivial
  · cases h

theorem cause_math (sign : words ⟨.math, operator⟩) (h : math operator a b = .error cause) :
    cause.MadeOf words := by
  unfold math at h
  split at h
  · split at h <;> cases h
    exact sign
  · cases h
    trivial

theorem cause_compare (sign : words ⟨.comparison, operator⟩)
    (h : compare operator a b = .error cause) : cause.MadeOf words := by
  unfold compare at h
  split at h
  · split at h <;> cases h
    exact sign
  · cases h
    trivial

theorem madeOf_negate (h : negate a = .ok value) : value.MadeOf words := by
  unfold negate at h
  split at h <;> cases h
  trivial

theorem cause_negate (h : negate a = .error cause) : cause.MadeOf words := by
  unfold negate at h
  split at h <;> cases h
  trivial

end Value

namespace Expr.MadeOf

/-- A string is a literal or was stored before: operations give none. -/
theorem eval_ok (h : Expr.MadeOf words e) (hstore : Store.MadeOf words store)
    (heval : e.eval store = .ok value) : value.MadeOf words := by
  cases h with
  | identifier =>
    rw [Expr.eval] at heval
    split at heval
    next found hfound =>
      cases heval
      exact hstore _ _ hfound
    next => cases heval
  | number | null =>
    cases heval
    trivial
  | string word =>
    cases heval
    exact word
  | negate =>
    obtain ⟨a, -, heval⟩ := bind_eq_ok.1 heval
    exact Value.madeOf_negate heval
  | math =>
    -- Whatever the operands are: an operator that gives a value gives a number.
    obtain ⟨a, -, heval⟩ := bind_eq_ok.1 heval
    obtain ⟨b, -, heval⟩ := bind_eq_ok.1 heval
    exact Value.madeOf_math heval
  | comparison =>
    obtain ⟨a, -, heval⟩ := bind_eq_ok.1 heval
    obtain ⟨b, -, heval⟩ := bind_eq_ok.1 heval
    obtain ⟨holds, -, heval⟩ := bind_eq_ok.1 heval
    cases heval
    trivial

theorem eval_error (h : Expr.MadeOf words e) (herror : e.eval store = .error cause) :
    cause.MadeOf words := by
  induction h generalizing cause with
  | identifier word =>
    rw [Expr.eval] at herror
    split at herror
    · cases herror
    · cases herror
      exact word
  | number | string | null => cases herror
  | negate _ ih =>
    rcases bind_eq_error.1 herror with herror | ⟨a, -, herror⟩
    · exact ih herror
    · exact Value.cause_negate herror
  | math _ sign _ ihl ihr =>
    rcases bind_eq_error.1 herror with herror | ⟨a, -, herror⟩
    · exact ihl herror
    rcases bind_eq_error.1 herror with herror | ⟨b, -, herror⟩
    · exact ihr herror
    · exact Value.cause_math sign herror
  | comparison _ sign _ ihl ihr =>
    rcases bind_eq_error.1 herror with herror | ⟨a, -, herror⟩
    · exact ihl herror
    rcases bind_eq_error.1 herror with herror | ⟨b, -, herror⟩
    · exact ihr herror
    rcases bind_eq_error.1 herror with herror | ⟨holds, -, herror⟩
    · exact Value.cause_compare sign herror
    · cases herror

theorem inLine_kindName (h : Expr.MadeOf words e) : Text.InLine e.kindName := by
  cases h <;> exact Text.inLine_ofList.2 (by decide)

end Expr.MadeOf

-- ---------------------------------------------------------------------------
-- Putting runs together
-- ---------------------------------------------------------------------------

theorem Completion.madeOf_normal : Completion.MadeOf words .normal := by
  simp [MadeOf, value?]

theorem Completion.madeOf_returned_none : Completion.MadeOf words (.returned none) := by
  simp [MadeOf, value?]

theorem Completion.madeOf_ofReturned (h : value.MadeOf words) :
    (Completion.ofReturned value).MadeOf words := by
  intro returned hreturned
  simp only [ofReturned, value?] at hreturned
  split at hreturned
  · cases hreturned
  · cases hreturned
    exact h

namespace Run.MadeOf

variable {holds : α → Prop} {run : Run α} {cause : EvalError.Cause} {events : List Event}

theorem done (hstore : Store.MadeOf words store) (h : holds a) :
    (Run.done store a).MadeOf words holds where
  events := List.forall_mem_nil _
  store := hstore
  result := by rintro _ ⟨⟩; exact h
  cause := nofun

theorem fail (hstore : Store.MadeOf words store) (h : cause.MadeOf words) :
    (Run.fail store cause).MadeOf words holds where
  events := List.forall_mem_nil _
  store := hstore
  result := nofun
  cause := by rintro _ ⟨⟩; exact h

theorem given {e : Expr} {next : Value → Run α} (hstore : Store.MadeOf words store)
    (he : e.MadeOf words) (h : ∀ value, value.MadeOf words → (next value).MadeOf words holds) :
    (Run.given store (e.eval store) next).MadeOf words holds := by
  cases heval : e.eval store with
  | error cause => exact .fail hstore (he.eval_error heval)
  | ok value => exact h value (he.eval_ok hstore heval)

theorem located (h : run.MadeOf words holds) (line : Option Int) :
    (run.located line).MadeOf words holds where
  events := h.events
  store := h.store
  result a ha := h.result a ((Run.outcome_located_ok line).1 ha)
  cause error herror := by
    obtain ⟨own, hown, rfl⟩ := Run.outcome_located_error herror
    exact h.cause own hown

theorem after (h : run.MadeOf words holds)
    (hevents : ∀ event ∈ events, event.MadeOf words) :
    (run.after events).MadeOf words holds where
  events := List.forall_mem_append.2 ⟨hevents, h.events⟩
  store := h.store
  result := h.result
  cause := h.cause

end Run.MadeOf

-- ---------------------------------------------------------------------------
-- Statements
-- ---------------------------------------------------------------------------

theorem Assignment.madeOf_exec {assigned : Assignment} (hstore : Store.MadeOf words store)
    (target : words ⟨.identifier, assigned.target.symbol⟩)
    (hvalue : assigned.value.MadeOf words) :
    (assigned.exec store).MadeOf words (Completion.MadeOf words) := by
  rw [exec]
  split
  · exact .given hstore hvalue fun _ hassigned =>
      .done (hstore.insert hassigned _) Completion.madeOf_normal
  · exact .fail hstore target

namespace Stmt.MadeOf

theorem ground {s : Stmt} (hstore : Store.MadeOf words store) :
    (s.ground store).MadeOf words := by
  unfold Stmt.ground
  split
  · split
    · exact hstore
    · exact hstore.declare _
  · exact hstore

theorem own {s : Stmt} (h : s.MadeOf words) (hstore : Store.MadeOf words store) :
    (s.own store).MadeOf words (Completion.MadeOf words) := by
  obtain ⟨targets, expressions⟩ := h
  cases s with
  | block inner => exact .done hstore Completion.madeOf_normal
  | choice first =>
    rw [Stmt.own]
    cases htaken : first.taken store with
    | ok body => exact .done hstore Completion.madeOf_normal
    | error cause =>
      obtain ⟨e, hmem, herror⟩ := first.exists_error_of_taken htaken
      exact .fail hstore ((expressions e hmem).eval_error herror)
  | print line e =>
    refine .given hstore (expressions e List.mem_cons_self) fun value hvalue => ?_
    have hevent : Event.MadeOf words (.printed value) := hvalue
    exact (Run.MadeOf.done hstore Completion.madeOf_normal).after
      (List.forall_mem_singleton.2 hevent)
  | «return» line e =>
    cases e with
    | none => exact .done hstore Completion.madeOf_returned_none
    | some e =>
      exact .given hstore (expressions e List.mem_cons_self) fun value hvalue =>
        .done hstore (Completion.madeOf_ofReturned hvalue)
  | declaration declared =>
    have hname := targets _ List.mem_cons_self
    rw [Stmt.own, Declaration.exec]
    split
    · exact .fail hstore hname
    · exact Assignment.madeOf_exec (hstore.declare _)
        (targets _ (List.mem_cons_of_mem _ List.mem_cons_self))
        (expressions _ List.mem_cons_self)
  | assignment assigned =>
    exact Assignment.madeOf_exec hstore (targets _ List.mem_cons_self)
      (expressions _ List.mem_cons_self)
  | expression e =>
    exact .given hstore (expressions e List.mem_cons_self) fun _ _ =>
      .done hstore Completion.madeOf_normal

theorem inLine_kindName {s : Stmt} (h : s.MadeOf words) : Text.InLine s.kindName := by
  cases s with
  | expression e => exact (h.expressions e List.mem_cons_self).inLine_kindName
  | _ => exact Text.inLine_ofList.2 (by decide)

end Stmt.MadeOf

-- ---------------------------------------------------------------------------
-- Runs
-- ---------------------------------------------------------------------------

/-- At no moment of a run there is a string that is no word: not in the store that
a statement finds, nor in the one in which it evaluates, nor in what it does. -/
structure Visit.MadeOf (words : Word → Prop) (visit : Visit) : Prop where
  found : visit.store.MadeOf words
  ground : (visit.statement.ground visit.store).MadeOf words
  own : visit.own.MadeOf words (Completion.MadeOf words)

theorem Visit.madeOf {visit : Visit} (h : visit.statement.MadeOf words)
    (hstore : visit.store.MadeOf words) : visit.MadeOf words :=
  ⟨hstore, Stmt.MadeOf.ground hstore, (h.own hstore).located _⟩

namespace Task

theorem madeOf_announcement {task : Task} (h : task.statement.MadeOf words) (trace : Bool) :
    ∀ event ∈ task.announcement trace, event.MadeOf words := by
  rw [announcement]
  split
  · exact List.forall_mem_singleton.2 h.inLine_kindName
  · exact List.forall_mem_nil _

/-- The run: what a statement opens stands inside of it and is made of the same
words. -/
theorem madeOf_execAll (trace : Bool) (hstore : Store.MadeOf words store)
    (h : ∀ s ∈ statements tasks, s.MadeOf words) :
    (∀ visit ∈ visits store tasks, visit.MadeOf words) ∧
      (execAll trace store tasks).MadeOf words (Completion.MadeOf words) := by
  induction store, tasks using steps_induction with
  | nil store =>
    rw [visits_nil]
    exact ⟨List.forall_mem_nil _, .done hstore Completion.madeOf_normal⟩
  | stop store task others hstops =>
    have hs := h task.statement List.mem_cons_self
    have hvisit : Visit.MadeOf words ⟨task, store⟩ := Visit.madeOf hs hstore
    rw [visits_cons_of_not_normal hstops, execAll_cons, Run.andThen_of_not_normal hstops]
    exact ⟨List.forall_mem_singleton.2 hvisit, hvisit.own.after (madeOf_announcement hs trace)⟩
  | step store task others hpasses ih =>
    have hs := h task.statement List.mem_cons_self
    have hvisit : Visit.MadeOf words ⟨task, store⟩ := Visit.madeOf hs hstore
    obtain ⟨hvisits, hothers⟩ := ih hvisit.own.store fun s hmem =>
      h s (List.mem_cons_of_mem _ ((statements_opened_sublist store task others).mem hmem))
    rw [visits_cons_of_normal hpasses, execAll_cons, Run.andThen_of_normal hpasses]
    exact ⟨List.forall_mem_cons.2 ⟨hvisit, hvisits⟩,
      (hothers.after hvisit.own.events).after (madeOf_announcement hs trace)⟩

end Task

namespace Program

theorem madeOf_visits {program : Program} (h : ∀ s ∈ program.statements, s.MadeOf words)
    (hstore : Store.MadeOf words store) : ∀ visit ∈ program.visits store, visit.MadeOf words :=
  (Task.madeOf_execAll false hstore (program.statements_tasks ▸ h)).1

theorem madeOf_exec {program : Program} (h : ∀ s ∈ program.statements, s.MadeOf words)
    (trace : Bool) (hstore : Store.MadeOf words store) :
    (program.exec trace store).MadeOf words (Completion.MadeOf words) := by
  rw [exec_eq]
  exact (Task.madeOf_execAll trace hstore (program.statements_tasks ▸ h)).2

theorem madeOf_run {program : Program} (h : ∀ s ∈ program.statements, s.MadeOf words)
    (trace : Bool) :
    (program.run trace).MadeOf words fun result => ∀ value ∈ result, value.MadeOf words := by
  obtain ⟨events, store, result, cause⟩ := madeOf_exec h trace Store.madeOf_empty
  unfold run
  dsimp only
  split
  next completion hcompletion =>
    have hresult := result completion hcompletion
    refine ⟨?_, store, by rintro _ ⟨⟩; exact hresult, by rintro _ ⟨⟩⟩
    refine List.forall_mem_cons.2 ⟨trivial, List.forall_mem_append.2 ⟨events, ?_⟩⟩
    refine List.forall_mem_cons.2 ⟨trivial, fun event hmem => ?_⟩
    obtain ⟨value, hvalue, rfl⟩ := Option.map_eq_some_iff.1 (Option.mem_toList.1 hmem)
    exact hresult value hvalue
  next error herror =>
    exact ⟨List.forall_mem_cons.2 ⟨trivial, events⟩, store, by rintro _ ⟨⟩,
      by rintro _ ⟨⟩; exact cause error herror⟩

end Program

-- ---------------------------------------------------------------------------
-- What stays in its line
-- ---------------------------------------------------------------------------

section
variable (hw : ∀ word, words word → Text.InLine word.text)
include hw

theorem Value.MadeOf.inLine_display (h : Value.MadeOf words value) :
    Text.InLine value.display := by
  refine Value.inLine_display ?_
  rintro text rfl
  exact hw _ h

theorem Event.MadeOf.inLine_text (h : Event.MadeOf words event) : Text.InLine event.text := by
  cases event with
  | started | finished => exact Text.inLine_ofList.2 (by decide)
  | executing line kind =>
    rw [Event.text_executing]
    simp only [Text.inLine_append, Text.inLine_numberOrNone]
    exact ⟨Text.inLine_ofList.2 (by decide), trivial, Text.inLine_ofList.2 (by decide), h⟩
  | printed value | result value =>
    exact Text.inLine_append.2 ⟨Text.inLine_ofList.2 (by decide), h.inLine_display hw⟩

theorem EvalError.Cause.MadeOf.inLine_message {cause : EvalError.Cause}
    (h : EvalError.Cause.MadeOf words cause) :
    Text.InLine cause.message := by
  cases cause with
  | unknownName name | repeatedDeclaration name | unknownMathOperator operator
  | unknownComparisonOperator operator =>
    exact Text.inLine_append.2 ⟨Text.inLine_ofList.2 (by decide), hw _ h⟩
  | notAValue kind => cases h
  | _ => exact Text.inLine_ofList.2 (by decide)

end

end Rech
