import Rech.Proofs.Run.Visits

/-!
# Chains of choices

A choice tests its condition, and if that does not hold the conditions chained
to it in turn, until one holds or fails. So a chain of choices is a list of arms,
each a condition and its block, and the first arm whose condition holds is the
one that is taken.
-/

namespace Rech

mutual
/-- The conditions of a chain that are evaluated: up to the first one that holds
or fails. -/
def Choice.tested (store : Store) : Choice → List Comparison
  | .mk _ condition _ otherwise =>
    condition ::
      match condition.eval store with
      | .ok false => otherwise.tested store
      | _ => []

def Otherwise.tested (store : Store) : Otherwise → List Comparison
  | .nothing => []
  | .block _ => []
  | .choice chosen => chosen.tested store
end

mutual
theorem Choice.taken_of_tested {condition : Comparison} (h : condition.eval store = .error cause) :
    (first : Choice) → condition ∈ first.tested store → first.taken store = .error cause
  | .mk _ own _ otherwise => by
    intro hmem
    rw [Choice.tested] at hmem
    rw [Choice.taken]
    rcases List.mem_cons.1 hmem with rfl | hmem
    · rw [h]
    · split at hmem
      next hfalse =>
        rw [hfalse]
        exact otherwise.taken_of_tested h hmem
      next => cases hmem

theorem Otherwise.taken_of_tested {condition : Comparison}
    (h : condition.eval store = .error cause) :
    (otherwise : Otherwise) → condition ∈ otherwise.tested store →
      otherwise.taken store = .error cause
  | .nothing => by rintro ⟨⟩
  | .block _ => by rintro ⟨⟩
  | .choice chosen => chosen.taken_of_tested h
end

-- ---------------------------------------------------------------------------
-- Arms
-- ---------------------------------------------------------------------------

mutual
def Choice.arms : Choice → List (Comparison × Block)
  | .mk _ condition body otherwise => (condition, body) :: otherwise.arms

def Otherwise.arms : Otherwise → List (Comparison × Block)
  | .nothing => []
  | .block _ => []
  | .choice chosen => chosen.arms
end

mutual
def Choice.fallback : Choice → Option Block
  | .mk _ _ _ otherwise => otherwise.fallback

def Otherwise.fallback : Otherwise → Option Block
  | .nothing => none
  | .block chosen => some chosen
  | .choice chosen => chosen.fallback
end

/-- The conditions of a chain that are evaluated on a store, and the block that is
selected: that of the first condition that holds, or the last one if none does. -/
inductive Selects (store : Store) (arms : List (Comparison × Block)) (fallback : Option Block) :
    List Comparison → Except EvalError.Cause (Option Block) → Prop
  | first {before behind : List (Comparison × Block)} {condition : Comparison} {body : Block}
      (split : arms = before ++ (condition, body) :: behind)
      (fail : ∀ arm ∈ before, arm.1.eval store = .ok false)
      (holds : condition.eval store = .ok true) :
      Selects store arms fallback (before.map Prod.fst ++ [condition]) (.ok (some body))
  | none (fail : ∀ arm ∈ arms, arm.1.eval store = .ok false) :
      Selects store arms fallback (arms.map Prod.fst) (.ok fallback)
  | error {before behind : List (Comparison × Block)} {condition : Comparison} {body : Block}
      (split : arms = before ++ (condition, body) :: behind)
      (fail : ∀ arm ∈ before, arm.1.eval store = .ok false)
      (error : condition.eval store = .error cause) :
      Selects store arms fallback (before.map Prod.fst ++ [condition]) (.error cause)

theorem Selects.cons {arm : Comparison × Block}
    (h : Selects store arms fallback evaluated selected) (hfalse : arm.1.eval store = .ok false) :
    Selects store (arm :: arms) fallback (arm.1 :: evaluated) selected := by
  cases h with
  | first split fail holds =>
    exact .first (congrArg (arm :: ·) split) (List.forall_mem_cons.2 ⟨hfalse, fail⟩) holds
  | none fail => exact .none (List.forall_mem_cons.2 ⟨hfalse, fail⟩)
  | error split fail error =>
    exact .error (congrArg (arm :: ·) split) (List.forall_mem_cons.2 ⟨hfalse, fail⟩) error

def Block.selectedBody : Option Block → List Stmt
  | none => []
  | some selected => selected.body

mutual
theorem Choice.exists_selects (store : Store) : (first : Choice) → ∃ selected,
    Selects store first.arms first.fallback (first.tested store) selected ∧
      first.taken store = selected.map Block.selectedBody
  | .mk _ condition body otherwise => by
    have hnil : ∀ arm ∈ ([] : List (Comparison × Block)), arm.1.eval store = .ok false :=
      List.forall_mem_nil _
    simp only [Choice.tested, Choice.taken]
    cases h : condition.eval store with
    | error cause => exact ⟨_, .error rfl hnil h, rfl⟩
    | ok holds =>
      cases holds with
      | true => exact ⟨_, .first rfl hnil h, rfl⟩
      | false =>
        obtain ⟨selected, hselects, htaken⟩ := otherwise.exists_selects store
        have hfalse : (condition, body).1.eval store = .ok false := h
        exact ⟨selected, hselects.cons hfalse, htaken⟩

theorem Otherwise.exists_selects (store : Store) : (otherwise : Otherwise) → ∃ selected,
    Selects store otherwise.arms otherwise.fallback (otherwise.tested store) selected ∧
      otherwise.taken store = selected.map Block.selectedBody
  | .nothing => ⟨_, .none (List.forall_mem_nil _), rfl⟩
  | .block _ => ⟨_, .none (List.forall_mem_nil _), rfl⟩
  | .choice chosen => chosen.exists_selects store
end

theorem Choice.exists_tested_of_taken {first : Choice} (h : first.taken store = .error cause) :
    ∃ condition ∈ first.tested store, condition.eval store = .error cause := by
  obtain ⟨selected, hselects, htaken⟩ := first.exists_selects store
  rw [htaken] at h
  generalize first.tested store = evaluated at hselects
  cases hselects with
  | first | none => cases h
  | @error cause before behind condition body _ _ error =>
    obtain rfl := Except.error.inj h
    exact ⟨condition, by simp, error⟩

theorem Choice.exists_selects_exec (trace : Bool) (store : Store) (first : Choice) :
    ∃ selected, Selects store first.arms first.fallback (first.tested store) selected ∧
      (Stmt.choice first).exec trace store = (Stmt.choice first).around trace
        (.given store selected fun body => Stmt.execAll trace store (Block.selectedBody body)) := by
  obtain ⟨selected, hselects, htaken⟩ := first.exists_selects store
  refine ⟨selected, hselects, ?_⟩
  rw [Stmt.exec, Choice.exec_eq, htaken]
  cases selected <;> rfl

end Rech
