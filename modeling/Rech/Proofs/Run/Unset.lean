import Rech.Proofs.Grammar.Parts
import Rech.Proofs.Grammar.Program
import Rech.Proofs.Run.Dependence
import Rech.Proofs.Run.Returning

/-!
# Unset values

A name is unset while its declaration evaluates its first value. Only reading
the name gives that value, and no operation takes it. So a declaration that does
not give a name to itself either gives it a value or fails, and where every
name has a value to begin with, nothing else can come by an unset one.
-/

namespace Rech

/-- No name is without a value. -/
def Store.Settled (store : Store) : Prop := ∀ name : String, store[name]? ≠ some .unset

/-- The first value of a name is the name itself. Parentheses around it leave no
node in the tree. -/
def Declaration.OfItself (declared : Declaration) : Prop :=
  ∃ line, declared.init.value = .identifier ⟨line, declared.identifier.symbol⟩

/-- A declaration gives the name a value, and not its own. -/
structure Declaration.GivesValue (declared : Declaration) : Prop where
  same : declared.init.target.symbol = declared.identifier.symbol
  other : ¬declared.OfItself

def Stmt.GivesValue (s : Stmt) : Prop :=
  ∀ declared, s = .declaration declared → declared.GivesValue

-- ---------------------------------------------------------------------------
-- Expressions
-- ---------------------------------------------------------------------------

/-- Evaluating an expression comes to the operand: those before it have values. -/
inductive Expr.Uses (store : Store) : Expr → Expr → Prop
  | negate {line : Option Int} : Uses store (.negate line a) a
  | mathLeft {line : Option Int} : Uses store (.math line l sign r) l
  | mathRight {line : Option Int} (left : l.eval store = .ok value) :
      Uses store (.math line l sign r) r
  | comparisonLeft {line : Option Int} : Uses store (.comparison line l sign r) l
  | comparisonRight {line : Option Int} (left : l.eval store = .ok value) :
      Uses store (.comparison line l sign r) r
  | inner (outer : Uses store e a) (inner : Uses store a b) : Uses store e b

theorem Value.math_ne_unset : Value.math sign a b ≠ .ok .unset := by
  unfold math
  split
  · split <;> simp
  · simp

theorem Value.negate_ne_unset : Value.negate a ≠ .ok .unset := by
  cases a <;> simp [negate]

theorem Expr.eval_unset {e : Expr} (h : e.eval store = .ok .unset) :
    ∃ name, e = .identifier name ∧ store[name.symbol]? = some .unset := by
  cases e with
  | identifier name =>
    rw [eval] at h
    split at h
    next hfound => exact ⟨name, rfl, by cases h; exact hfound⟩
    next => cases h
  | number | string | null | foreign => cases h
  | negate line operand =>
    obtain ⟨a, -, h⟩ := bind_eq_ok.1 h
    exact absurd h Value.negate_ne_unset
  | math line l sign r =>
    obtain ⟨a, -, h⟩ := bind_eq_ok.1 h
    obtain ⟨b, -, h⟩ := bind_eq_ok.1 h
    exact absurd h Value.math_ne_unset
  | comparison line l sign r =>
    obtain ⟨a, -, h⟩ := bind_eq_ok.1 h
    obtain ⟨b, -, h⟩ := bind_eq_ok.1 h
    obtain ⟨holds, -, h⟩ := bind_eq_ok.1 h
    cases h

theorem Expr.Uses.set (h : Uses store e a) (he : e.eval store = .ok value) :
    ∃ used, a.eval store = .ok used ∧ used ≠ .unset := by
  induction h generalizing value with
  | negate =>
    obtain ⟨a, ha, he⟩ := bind_eq_ok.1 he
    exact ⟨a, ha, by rintro rfl; cases he⟩
  | mathLeft =>
    obtain ⟨a, ha, he⟩ := bind_eq_ok.1 he
    obtain ⟨b, -, he⟩ := bind_eq_ok.1 he
    exact ⟨a, ha, by rintro rfl; cases he⟩
  | mathRight =>
    obtain ⟨a, -, he⟩ := bind_eq_ok.1 he
    obtain ⟨b, hb, he⟩ := bind_eq_ok.1 he
    exact ⟨b, hb, by rintro rfl; cases a <;> cases he⟩
  | comparisonLeft =>
    obtain ⟨a, ha, he⟩ := bind_eq_ok.1 he
    obtain ⟨b, -, he⟩ := bind_eq_ok.1 he
    obtain ⟨holds, he, -⟩ := bind_eq_ok.1 he
    exact ⟨a, ha, by rintro rfl; cases he⟩
  | comparisonRight =>
    obtain ⟨a, -, he⟩ := bind_eq_ok.1 he
    obtain ⟨b, hb, he⟩ := bind_eq_ok.1 he
    obtain ⟨holds, he, -⟩ := bind_eq_ok.1 he
    exact ⟨b, hb, by rintro rfl; cases a <;> cases he⟩
  | inner _ _ ihouter ihinner =>
    obtain ⟨used, hused, -⟩ := ihouter he
    exact ihinner hused

theorem Expr.Uses.fails (h : Uses store e a) (ha : a.eval store = .ok .unset) :
    ∃ cause, e.eval store = .error cause := by
  cases he : e.eval store with
  | error cause => exact ⟨cause, rfl⟩
  | ok value =>
    obtain ⟨used, hused, hset⟩ := h.set he
    exact absurd (Except.ok.inj (hused.symm.trans ha)) hset

-- ---------------------------------------------------------------------------
-- Statements
-- ---------------------------------------------------------------------------

theorem Store.unset_of_insert {store : Store} {value : Value}
    (h : (store.insert target value)[name]? = some .unset) :
    name = target ∧ value = .unset ∨ name ≠ target ∧ store[name]? = some .unset := by
  rw [Std.TreeMap.getElem?_insert] at h
  split at h
  next heq => exact .inl ⟨(Std.compare_eq_iff_eq.1 heq).symm, Option.some.inj h⟩
  next hne => exact .inr ⟨fun heq => hne (Std.compare_eq_iff_eq.2 heq.symm), h⟩

/-- An assignment of what is not unset leaves a name unset that was so before. It
fails, or it is not the name that it assigns. -/
theorem Assignment.unset_of_exec {assigned : Assignment}
    (hset : assigned.value ∈ assigned.evaluated store → assigned.value.eval store ≠ .ok .unset)
    (hunset : (assigned.exec store).store[name]? = some .unset) :
    store[name]? = some .unset ∧
      ((∃ cause, assigned.exec store = .fail store cause ∧
        ∀ e ∈ assigned.evaluated store, e.eval store = .error cause) ∨
      name ≠ assigned.target.symbol) := by
  rcases assigned.exec_cases store with ⟨unknown, hexec⟩ |
    ⟨known, ⟨cause, hvalue, hexec⟩ | ⟨value, hvalue, hexec⟩⟩ <;> rw [hexec] at hunset ⊢
  · exact ⟨hunset, .inl ⟨_, rfl, by simp [evaluated, unknown]⟩⟩
  · exact ⟨hunset, .inl ⟨cause, rfl, by simp [evaluated, known, hvalue]⟩⟩
  · rcases Store.unset_of_insert hunset with ⟨-, rfl⟩ | ⟨hne, hunset⟩
    · exact absurd hvalue (hset (by simp [evaluated, known]))
    · exact ⟨hunset, .inr hne⟩

namespace Stmt

theorem ground_unset {s : Stmt} (h : Store.Settled store)
    (hunset : (s.ground store)[name]? = some .unset) :
    ∃ declared, s = .declaration declared ∧ declared.identifier.symbol = name := by
  cases s with
  | declaration declared =>
    refine ⟨declared, rfl, ?_⟩
    rw [ground] at hunset
    split at hunset
    · exact absurd hunset (h name)
    · rcases Store.unset_of_insert hunset with ⟨rfl, -⟩ | ⟨-, hunset⟩
      · rfl
      · exact absurd hunset (h name)
  | _ => exact absurd hunset (h name)

theorem eq_init_of_evaluated (h : e ∈ (Stmt.declaration declared).evaluated store) :
    e = declared.init.value := by
  simp only [evaluated, Assignment.evaluated] at h
  split at h
  · cases h
  · split at h
    · exact List.mem_singleton.1 h
    · cases h

theorem GivesValue.eval_ne_unset {s : Stmt} (hs : s.GivesValue) (h : Store.Settled store)
    (hmem : e ∈ s.evaluated store) : e.eval (s.ground store) ≠ .ok .unset := by
  intro hunset
  obtain ⟨name, rfl, hname⟩ := Expr.eval_unset hunset
  obtain ⟨declared, rfl, hdeclared⟩ := ground_unset h hname
  refine (hs declared rfl).other ⟨name.line, ?_⟩
  rw [← eq_init_of_evaluated hmem, hdeclared]

theorem exists_declaration_of_uses {s : Stmt} (h : Store.Settled store)
    (hmem : e ∈ s.evaluated store) (huses : e.Uses (s.ground store) a)
    (hunset : a.eval (s.ground store) = .ok .unset) :
    ∃ declared line cause, s = .declaration declared ∧ e = declared.init.value ∧
      a = .identifier ⟨line, declared.identifier.symbol⟩ ∧
        s.own store = .fail (s.ground store) cause ∧ e.eval (s.ground store) = .error cause := by
  obtain ⟨cause, hcause⟩ := huses.fails hunset
  obtain ⟨name, rfl, hname⟩ := Expr.eval_unset hunset
  obtain ⟨declared, rfl, hdeclared⟩ := ground_unset h hname
  refine ⟨declared, name.line, cause, rfl, eq_init_of_evaluated hmem, ?_, own_of_error hmem hcause,
    hcause⟩
  rw [hdeclared]

/-- The step: a statement leaves a name unset only if it declares it and fails at
its first value. -/
theorem GivesValue.own_unset {s : Stmt} (hs : s.GivesValue) (h : Store.Settled store)
    (hunset : (s.own store).store[name]? = some .unset) :
    ∃ declared cause, s = .declaration declared ∧ declared.identifier.symbol = name ∧
      name ∉ store ∧ declared.init.value.eval (store.insert name .unset) = .error cause ∧
        s.own store = .fail (store.insert name .unset) cause := by
  have hset : ∀ e ∈ s.evaluated store, e.eval (s.ground store) ≠ .ok .unset :=
    fun e hmem => hs.eval_ne_unset h hmem
  cases s with
  | declaration declared =>
    -- Of a new name, the declaration unsets it, and the assignment in it sets it or fails.
    simp only [own, Declaration.exec, evaluated, ground] at hunset hset ⊢
    split at hunset
    next => exact absurd hunset (h name)
    next fresh =>
      simp only [if_neg fresh] at hset ⊢
      have hsame := (hs declared rfl).same
      obtain ⟨hground, hends⟩ := Assignment.unset_of_exec (hset _) hunset
      rcases Store.unset_of_insert hground with ⟨rfl, -⟩ | ⟨-, hunset⟩
      · rcases hends with ⟨cause, hexec, hcause⟩ | hne
        · refine ⟨declared, cause, rfl, rfl, fresh, hcause _ ?_, hexec⟩
          simp [Assignment.evaluated, hsame]
        · exact absurd hsame.symm hne
      · exact absurd hunset (h name)
  | assignment assigned =>
    obtain ⟨hunset, -⟩ := Assignment.unset_of_exec (hset _) hunset
    exact absurd hunset (h name)
  | _ =>
    rw [store_own rfl] at hunset
    exact absurd hunset (h name)

theorem print_of_mem_events_own {s : Stmt} (h : .printed value ∈ (s.own store).events) :
    ∃ line e, s = .print line e ∧ e.eval store = .ok value := by
  rcases s.events_own_cases store with hnone | ⟨line, e, shown, rfl, -⟩
  · simp [hnone] at h
  · refine ⟨line, e, rfl, ?_⟩
    rw [own, Expr.print] at h
    cases he : e.eval store with
    | error cause =>
      rw [he] at h
      cases h
    | ok found =>
      rw [he] at h
      obtain ⟨⟩ := List.mem_singleton.1 h
      rfl

end Stmt

-- ---------------------------------------------------------------------------
-- Runs
-- ---------------------------------------------------------------------------

theorem Visit.settled_own {visit : Visit} (hs : visit.statement.GivesValue)
    (h : Store.Settled visit.store) (hends : visit.own.outcome = .ok completion) :
    Store.Settled visit.own.store := by
  intro name hunset
  obtain ⟨declared, cause, -, -, -, -, hown⟩ := hs.own_unset h hunset
  have hfails := (Run.outcome_located_ok _).1 hends
  rw [hown] at hfails
  cases hfails

/-- The declaration fails at its first value, and its name is the one that is unset. -/
def Visit.FailsUnset (visit : Visit) (declared : Declaration) (cause : EvalError.Cause)
    (left : Store) : Prop :=
  visit.statement = .declaration declared ∧
    declared.init.value.eval (visit.store.insert declared.identifier.symbol .unset) =
      .error cause ∧
    ∀ name : String, left[name]? = some .unset ↔ name = declared.identifier.symbol

/-- A statement that leaves a name without a value is such a declaration. -/
theorem Visit.settled_or_failsUnset {visit : Visit} (hs : visit.statement.GivesValue)
    (h : Store.Settled visit.store) (hends : visit.own.outcome = .error error) :
    Store.Settled visit.own.store ∨
      ∃ declared, visit.FailsUnset declared error.cause visit.own.store := by
  by_cases hsettled : Store.Settled visit.own.store
  · exact .inl hsettled
  · obtain ⟨name, hunset⟩ := not_forall_not.1 hsettled
    obtain ⟨declared, cause, hdeclared, rfl, -, hcause, hown⟩ := hs.own_unset h hunset
    obtain ⟨own, hfails, rfl⟩ := Run.outcome_located_error hends
    rw [hown] at hfails
    obtain rfl := Except.error.inj hfails
    have hleft : visit.own.store = visit.store.insert declared.identifier.symbol .unset :=
      congrArg Run.store hown
    refine .inr ⟨declared, hdeclared, hcause, fun name => ⟨fun hname => ?_, ?_⟩⟩
    · rw [hleft] at hname
      rcases Store.unset_of_insert hname with ⟨heq, -⟩ | ⟨-, hname⟩
      · exact heq
      · exact absurd hname (h name)
    · rintro rfl
      rw [hleft, Std.TreeMap.getElem?_insert_self]

/-- The run: as long as the statements pass, every name has a value. -/
theorem Visit.Threads.settled (h : Threads found visits left) (hfound : Store.Settled found)
    (hs : ∀ visit ∈ visits, visit.statement.GivesValue) (passed : ∀ visit ∈ visits, visit.Passed) :
    Store.Settled left ∧ ∀ visit ∈ visits, Store.Settled visit.store := by
  induction h with
  | nil => exact ⟨hfound, List.forall_mem_nil _⟩
  | @cons visits left visit _ ih =>
    obtain ⟨hvisit, hothers⟩ := List.forall_mem_cons.1 hs
    obtain ⟨hpassed, passed⟩ := List.forall_mem_cons.1 passed
    obtain ⟨hleft, hvisits⟩ := ih (settled_own hvisit hfound hpassed) hothers passed
    exact ⟨hleft, List.forall_mem_cons.2 ⟨hfound, hvisits⟩⟩

theorem Visit.Ends.settled (hends : Ends run visits) (h : Threads found visits left)
    (hfound : Store.Settled found) (hs : ∀ visit ∈ visits, visit.statement.GivesValue) :
    ∀ visit ∈ visits, Store.Settled visit.store := by
  cases hends with
  | normal passed _ => exact (h.settled hfound hs passed).2
  | stopped passed =>
    obtain ⟨hearlier, -⟩ := List.forall_mem_append.1 hs
    obtain ⟨hlast, hvisits⟩ := h.of_append.settled hfound hearlier passed
    exact List.forall_mem_append.2 ⟨hvisits, List.forall_mem_singleton.2 hlast⟩

namespace Program

theorem givesValue_ofTokens {tokens : List Token} {program : Program}
    (h : Program.ofTokens tokens = .ok program)
    (hself : ∀ declared, .declaration declared ∈ program.statements → ¬declared.OfItself) :
    ∀ s ∈ program.statements, s.GivesValue := by
  rintro s hs declared rfl
  have hends : Token.EndsList tokens := Parsing.endsList_of_ofTokens h
  have hd := (Program.ofTokens_eq_ok_iff hends).1 h
  obtain ⟨v, -, hderives⟩ := Stmt.DerivesAll.statements hd _ hs
  refine ⟨?_, hself declared hs⟩
  cases hderives
  rfl

variable {program : Program}

theorem print_of_mem_events (trace : Bool)
    (h : .printed value ∈ (program.exec trace store).events) :
    ∃ visit ∈ program.visits store, ∃ line e, visit.statement = .print line e ∧
      e.eval visit.store = .ok value := by
  rw [events_exec] at h
  obtain ⟨visit, hvisit, h⟩ := List.mem_flatMap.1 h
  rcases List.mem_append.1 h with h | h
  · rw [Task.announcement] at h
    split at h <;> simp at h
  · exact ⟨visit, hvisit, Stmt.print_of_mem_events_own h⟩

theorem settled_visits (hs : ∀ s ∈ program.statements, s.GivesValue)
    (h : Store.Settled store) : ∀ visit ∈ program.visits store, Store.Settled visit.store :=
  (program.ends_exec false store).settled (program.threads_visits false store) h
    fun _ hvisit => hs _ (mem_statements_of_mem_visits hvisit)

theorem settled_exec (hs : ∀ s ∈ program.statements, s.GivesValue) (h : Store.Settled store)
    (hends : (program.exec trace store).outcome = .ok completion) :
    Store.Settled (program.exec trace store).store := by
  have hvisits := settled_visits hs h
  have hgives {visit : Visit} (hvisit : visit ∈ program.visits store) :=
    hs _ (mem_statements_of_mem_visits hvisit)
  have hthreads := program.threads_visits trace store
  have hrun := program.ends_exec trace store
  generalize program.visits store = visits at *
  cases hrun with
  | normal passed _ => exact (hthreads.settled h (fun _ hvisit => hgives hvisit) passed).1
  | @stopped earlier last _ _ outcome left =>
    rw [left]
    have hlast : last ∈ earlier ++ [last] := by simp
    exact Visit.settled_own (hgives hlast) (hvisits _ hlast) (outcome.symm.trans hends)

theorem settled_or_failsUnset (hs : ∀ s ∈ program.statements, s.GivesValue)
    (h : Store.Settled store) (hends : (program.exec trace store).outcome = .error error) :
    Store.Settled (program.exec trace store).store ∨
      ∃ last declared, (program.visits store).getLast? = some last ∧
        last.FailsUnset declared error.cause (program.exec trace store).store := by
  obtain ⟨last, hlast, houtcome, hleft⟩ := (program.ends_exec trace store).exists_last hends
  have hvisit := List.mem_of_getLast? hlast
  have hgives := hs _ (mem_statements_of_mem_visits hvisit)
  rw [hleft]
  rcases Visit.settled_or_failsUnset hgives (settled_visits hs h last hvisit) houtcome with
    hsettled | ⟨declared, hfails⟩
  · exact .inl hsettled
  · exact .inr ⟨last, declared, hlast, hfails⟩

theorem printed_ne_unset (hs : ∀ s ∈ program.statements, s.GivesValue) (h : Store.Settled store)
    (hprinted : .printed value ∈ (program.exec trace store).events) : value ≠ .unset := by
  rintro rfl
  obtain ⟨visit, hvisit, line, e, hprint, he⟩ := print_of_mem_events trace hprinted
  have hgives := hs _ (mem_statements_of_mem_visits hvisit)
  have hset := fun hmem => hgives.eval_ne_unset (settled_visits hs h visit hvisit) (e := e) hmem
  rw [hprint] at hset
  exact hset List.mem_cons_self he

theorem returned_ne_unset (hs : ∀ s ∈ program.statements, s.GivesValue) (h : Store.Settled store)
    (hreturned : (program.exec trace store).outcome = .ok (.returned value)) :
    ∃ last line e, (program.visits store).getLast? = some last ∧
      last.statement = .return line e ∧ ∀ returned, e = some returned →
        ∃ found, returned.eval last.store = .ok found ∧ found ≠ .unset ∧ value = some found := by
  obtain ⟨earlier, last, line, e, hvisits, -, hstatement, hreturns⟩ := exists_return hreturned
  refine ⟨last, line, e, by simp [hvisits], hstatement, ?_⟩
  rintro returned rfl
  have hlast : last ∈ program.visits store := by simp [hvisits]
  have hgives := hs _ (mem_statements_of_mem_visits hlast)
  have hsettled := settled_visits hs h last hlast
  have hset := fun hmem => hgives.eval_ne_unset hsettled (e := returned) hmem
  rw [hstatement] at hset
  cases hreturns with
  | unset hunset => exact absurd hunset (hset List.mem_cons_self)
  | value hvalue found => exact ⟨_, hvalue, found, rfl⟩

/-- A program that is read, and in which no declaration gives a name to itself,
comes by no unset value on a store that has none. What it prints and returns is
not unset, nor is what a statement evaluates: what it assigns, tests or throws
away. An operand is unset only if it is the name that is being declared, and that
makes the declaration fail. A run that ends leaves no name unset, and one that
fails at most the name at whose first value it failed. -/
theorem exec_unset {tokens : List Token} {program : Program}
    (hread : Program.ofTokens tokens = .ok program)
    (hself : ∀ declared, .declaration declared ∈ program.statements → ¬declared.OfItself)
    (trace : Bool) (store : Store) (h : Store.Settled store) :
    let run := program.exec trace store
    (∀ value, .printed value ∈ run.events → value ≠ .unset) ∧
    (∀ value, run.outcome = .ok (.returned value) →
      ∃ last line e, (program.visits store).getLast? = some last ∧
        last.statement = .return line e ∧ ∀ returned, e = some returned →
          ∃ found, returned.eval last.store = .ok found ∧ found ≠ .unset ∧ value = some found) ∧
    (∀ visit ∈ program.visits store, ∀ e ∈ visit.statement.evaluated visit.store,
      e.eval (visit.statement.ground visit.store) ≠ .ok .unset ∧
      ∀ a, e.Uses (visit.statement.ground visit.store) a →
        a.eval (visit.statement.ground visit.store) = .ok .unset →
          ∃ declared line cause, visit.statement = .declaration declared ∧
            e = declared.init.value ∧ a = .identifier ⟨line, declared.identifier.symbol⟩ ∧
            e.eval (visit.statement.ground visit.store) = .error cause ∧
            run.outcome = .error ⟨cause, visit.line⟩) ∧
    (∀ completion, run.outcome = .ok completion → Store.Settled run.store) ∧
    (∀ error, run.outcome = .error error → Store.Settled run.store ∨
      ∃ last declared, (program.visits store).getLast? = some last ∧
        last.FailsUnset declared error.cause run.store) := by
  intro run
  have hs := givesValue_ofTokens hread hself
  refine ⟨fun _ hprinted => printed_ne_unset hs h hprinted,
    fun _ hreturned => returned_ne_unset hs h hreturned, ?_,
    fun _ hends => settled_exec hs h hends, fun _ hends => settled_or_failsUnset hs h hends⟩
  intro visit hvisit e hmem
  have hgives := hs _ (mem_statements_of_mem_visits hvisit)
  have hfound := settled_visits hs h visit hvisit
  refine ⟨hgives.eval_ne_unset hfound hmem, ?_⟩
  intro a huses hunset
  obtain ⟨declared, line, cause, hdeclared, he, ha, hown, hcause⟩ :=
    Stmt.exists_declaration_of_uses hfound hmem huses hunset
  obtain ⟨-, -, -, houtcome⟩ := ends_of_fail trace hvisit hown
  exact ⟨declared, line, cause, hdeclared, he, ha, hcause, houtcome⟩

/-- `пусть a = b; пусть c = a - -c;`, all on one line. -/
def sampleUnset : List Token :=
  [(.letWord, "пусть"), (.identifier, "a"), (.assign, "="), (.identifier, "b"),
    (.semicolon, ";"), (.letWord, "пусть"), (.identifier, "c"), (.assign, "="),
    (.identifier, "a"), (.math, "-"), (.math, "-"), (.identifier, "c"), (.semicolon, ";"),
    (.endOfFile, "")].map fun entry => ⟨entry.1, entry.2, .start⟩

/-- The second declaration fails, because its name is unset. No other name is. -/
theorem exec_unset_sample : ∃ program, Program.ofTokens sampleUnset = .ok program ∧
    let run := program.exec false ((∅ : Store).insert "b" .null)
    run.outcome = .error ⟨.negationOfNonNumber, some 1⟩ ∧
      ∀ name : String, run.store[name]? = some .unset ↔ name = "c" := by
  let a : Identifier := ⟨some 1, "a"⟩
  let c : Identifier := ⟨some 1, "c"⟩
  let value : Expr := .math (some 1) (.identifier a) "-" (.negate (some 1) (.identifier c))
  let program : Program := ⟨[.declaration ⟨some 1, a, ⟨some 1, a, .identifier ⟨some 1, "b"⟩⟩⟩,
    .declaration ⟨some 1, c, ⟨some 1, c, value⟩⟩]⟩
  let store : Store := (∅ : Store).insert "b" .null
  have hread : Program.ofTokens sampleUnset = .ok program := rfl
  refine ⟨program, hread, ?_⟩
  have hself : ∀ declared, .declaration declared ∈ program.statements → ¬declared.OfItself := by
    intro declared hmem
    simp [program, statements, Stmt.allStatements, Stmt.inner] at hmem
    rcases hmem with rfl | rfl <;> simp [Declaration.OfItself, a, c, value]
  have hstore : Store.Settled store := by
    intro name hunset
    rcases Store.unset_of_insert hunset with ⟨-, ⟨⟩⟩ | ⟨-, hunset⟩
    simp at hunset
  have hfails : (program.exec false store).outcome = .error ⟨.negationOfNonNumber, some 1⟩ := by
    decide +kernel
  have hunset : (program.exec false store).store["c"]? = some .unset := by
    decide +kernel
  obtain ⟨-, -, -, -, failing⟩ := exec_unset hread hself false store hstore
  rcases failing _ hfails with hsettled | ⟨last, declared, -, -, -, hleft⟩
  · exact absurd hunset (hsettled "c")
  · rw [← (hleft "c").1 hunset] at hleft
    exact ⟨hfails, hleft⟩

end Program

end Rech
