import YureiGeyser.Library.Execution

/-!
# Progress of a partial step function

`CanReach` says that some actions lead from a state to one with a property, whatever happened
before.  A measure that some actions make smaller shows it by induction.  A rank that every step
lowers when its action counts, and raises never, bounds how many such actions any run takes.
-/

namespace Execution

variable {σ α : Type*} {step : σ → α → Option σ}

/-- Some actions lead from a state to one with a property. -/
def CanReach (step : σ → α → Option σ) (goal : σ → Prop) (state : σ) : Prop :=
  ∃ actions final, run step state actions = some final ∧ goal final

namespace CanReach

variable {goal middle : σ → Prop} {state next : σ}

theorem here (reached : goal state) : CanReach step goal state :=
  ⟨[], state, rfl, reached⟩

theorem of_step {action : α} (taken : step state action = some next)
    (later : CanReach step goal next) : CanReach step goal state := by
  obtain ⟨actions, final, rest, reached⟩ := later
  exact ⟨action :: actions, final, run_cons_eq_some.mpr ⟨next, taken, rest⟩, reached⟩

theorem trans (first : CanReach step middle state)
    (second : ∀ state, middle state → CanReach step goal state) : CanReach step goal state := by
  obtain ⟨actions, between, front, passed⟩ := first
  obtain ⟨more, final, back, reached⟩ := second between passed
  exact ⟨actions ++ more, final, run_append_eq_some.mpr ⟨between, front, back⟩, reached⟩

theorem mono (first : CanReach step middle state) (weaker : ∀ state, middle state → goal state) :
    CanReach step goal state :=
  first.trans fun state passed => here (weaker state passed)

/-- From every state with the invariant the goal can be reached, when the measure can be lowered
from those that miss it. -/
theorem of_measure {invariant : σ → Prop} (measure : σ → ℕ)
    (lower : ∀ state, invariant state → ¬ goal state →
      CanReach step (fun next => invariant next ∧ measure next < measure state) state)
    (initially : invariant state) : CanReach step goal state := by
  induction bound : measure state using Nat.strongRecOn generalizing state with
  | ind bound ih =>
      by_cases reached : goal state
      · exact here reached
      · refine (lower state initially reached).trans ?_
        rintro next ⟨kept, less⟩
        rw [bound] at less
        exact ih (measure next) less kept rfl

end CanReach

/-- A rank bounds the number of the actions that lower it, when no step raises it. -/
theorem countP_le_rank {invariant : σ → Prop} {counted : α → Bool} {rank : σ → ℕ}
    (preserved : ∀ state action next, invariant state → step state action = some next →
      invariant next)
    (lowers : ∀ state action next, invariant state → step state action = some next →
      rank next + (counted action).toNat ≤ rank state)
    {state final : σ} {actions : List α} (initially : invariant state)
    (execution : run step state actions = some final) :
    actions.countP counted + rank final ≤ rank state := by
  induction actions generalizing state with
  | nil =>
      cases execution
      exact Nat.le_of_eq (Nat.zero_add _)
  | cons action actions ih =>
      obtain ⟨next, taken, rest⟩ := run_cons_eq_some.mp execution
      have less := lowers state action next initially taken
      have later := ih (preserved state action next initially taken) rest
      rw [List.countP_cons]
      cases holds : counted action with
      | false =>
          rw [holds] at less
          rw [if_neg Bool.false_ne_true]
          exact Nat.le_trans later less
      | true =>
          rw [holds, Bool.toNat_true] at less
          rw [if_pos rfl]
          omega

/-- What no step raises, no run raises. -/
theorem le_of_run {invariant : σ → Prop} (quantity : σ → ℕ)
    (preserved : ∀ state action next, invariant state → step state action = some next →
      invariant next)
    (lowers : ∀ state action next, invariant state → step state action = some next →
      quantity next ≤ quantity state)
    {state final : σ} {actions : List α} (initially : invariant state)
    (execution : run step state actions = some final) : quantity final ≤ quantity state := by
  have bounded : ∀ before action after, invariant before ∧ quantity before ≤ quantity state →
      step before action = some after → invariant after ∧ quantity after ≤ quantity state := by
    rintro before action after ⟨kept, bound⟩ taken
    exact ⟨preserved before action after kept taken,
      Nat.le_trans (lowers before action after kept taken) bound⟩
  exact (run_invariant bounded ⟨initially, Nat.le_refl _⟩ execution).2

/-- A run goes on with one more step. -/
theorem run_snoc {state middle final : σ} {actions : List α} {action : α}
    (execution : run step state actions = some middle) (taken : step middle action = some final) :
    run step state (actions ++ [action]) = some final :=
  run_append_eq_some.mpr ⟨middle, execution, (run_singleton middle action).trans taken⟩

/-- A run in one system is matched by a run of the same actions in another one, when every step
is. -/
theorem exists_run_of_lockstep {τ : Type*} {step' : τ → α → Option τ} {related : σ → τ → Prop}
    (matched : ∀ state action next state', related state state' →
      step state action = some next →
        ∃ next', step' state' action = some next' ∧ related next next')
    {state final : σ} {state' : τ} {actions : List α} (initially : related state state')
    (execution : run step state actions = some final) :
    ∃ final', run step' state' actions = some final' ∧ related final final' := by
  induction actions generalizing state state' with
  | nil =>
      cases execution
      exact ⟨state', rfl, initially⟩
  | cons action actions ih =>
      obtain ⟨next, taken, rest⟩ := run_cons_eq_some.mp execution
      obtain ⟨next', first, kept⟩ := matched state action next state' initially taken
      obtain ⟨final', later, reached⟩ := ih kept rest
      exact ⟨final', run_cons_eq_some.mpr ⟨next', first, later⟩, reached⟩

end Execution
