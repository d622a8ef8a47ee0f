import Mathlib.Data.List.Basic

/-!
# Runs of a partial step function

A system is a step function `state → action → Option state`; an action that is not enabled, or
whose effect is undefined, has no result.  `run` follows a list of actions.  Every safety argument
of the development is an instance of `run_invariant` or, when only some actions are admissible, of
`run_invariant_of_forall`.  `Throughout` and `Meets` speak about all states and all steps of a run.
-/

namespace Execution

variable {σ α : Type*}

/-- Follow a list of actions from a state. -/
def run (step : σ → α → Option σ) : σ → List α → Option σ
  | state, [] => some state
  | state, action :: actions => step state action >>= fun next => run step next actions

variable {step : σ → α → Option σ}

@[simp] theorem run_nil (state : σ) : run step state [] = some state := rfl

theorem run_cons (state : σ) (action : α) (actions : List α) :
    run step state (action :: actions) =
      step state action >>= fun next => run step next actions := rfl

theorem run_cons_eq_some {state final : σ} {action : α} {actions : List α} :
    run step state (action :: actions) = some final ↔
      ∃ next, step state action = some next ∧ run step next actions = some final := by
  simp [run_cons, Option.bind_eq_some_iff]

theorem run_singleton (state : σ) (action : α) : run step state [action] = step state action := by
  simp [run_cons]

theorem run_append (state : σ) (front back : List α) :
    run step state (front ++ back) =
      run step state front >>= fun middle => run step middle back := by
  induction front generalizing state with
  | nil => rfl
  | cons action front induction =>
      simp only [List.cons_append, run_cons]
      cases step state action with
      | none => rfl
      | some next => exact induction next

theorem run_append_eq_some {state final : σ} {front back : List α} :
    run step state (front ++ back) = some final ↔
      ∃ middle, run step state front = some middle ∧ run step middle back = some final := by
  simp [run_append, Option.bind_eq_some_iff]

/-- A property kept by the steps whose actions are admissible is kept by the runs of such steps. -/
theorem run_invariant_of_forall {invariant : σ → Prop} {admissible : α → Prop}
    (preserved : ∀ state action next, admissible action → invariant state →
      step state action = some next → invariant next)
    {state final : σ} {actions : List α} (admitted : ∀ action ∈ actions, admissible action)
    (initially : invariant state) (execution : run step state actions = some final) :
    invariant final := by
  induction actions generalizing state with
  | nil =>
      obtain rfl := Option.some.inj execution
      exact initially
  | cons action actions induction =>
      obtain ⟨next, first, rest⟩ := run_cons_eq_some.mp execution
      exact induction (fun later member => admitted later (List.mem_cons_of_mem action member))
        (preserved state action next (admitted action List.mem_cons_self) initially first) rest

/-- A property kept by every step is kept by every run. -/
theorem run_invariant {invariant : σ → Prop}
    (preserved : ∀ state action next, invariant state → step state action = some next →
      invariant next)
    {state final : σ} {actions : List α} (initially : invariant state)
    (execution : run step state actions = some final) : invariant final := by
  have stepwise : ∀ state action next, True → invariant state → step state action = some next →
      invariant next :=
    fun state action next _ => preserved state action next
  exact run_invariant_of_forall stepwise (fun _ _ => trivial) initially execution

/-! ## All states and all steps of a run -/

/-- Every state that a list of actions reaches has a property. -/
def Throughout (step : σ → α → Option σ) (property : σ → Prop) : σ → List α → Prop
  | state, [] => property state
  | state, action :: actions =>
      property state ∧ ∀ next, step state action = some next → Throughout step property next actions

/-- Every step that a list of actions takes meets a condition on its state and its action. -/
def Meets (step : σ → α → Option σ) (condition : σ → α → Prop) : σ → List α → Prop
  | _, [] => True
  | state, action :: actions =>
      ∀ next, step state action = some next →
        condition state action ∧ Meets step condition next actions

theorem Throughout.initially {property : σ → Prop} {state : σ} {actions : List α}
    (throughout : Throughout step property state actions) : property state := by
  cases actions with
  | nil => exact throughout
  | cons action actions => exact throughout.1

theorem Throughout.finally {property : σ → Prop} {state final : σ} {actions : List α}
    (throughout : Throughout step property state actions)
    (execution : run step state actions = some final) : property final := by
  induction actions generalizing state with
  | nil =>
      obtain rfl := Option.some.inj execution
      exact throughout
  | cons action actions induction =>
      obtain ⟨next, first, rest⟩ := run_cons_eq_some.mp execution
      exact induction (throughout.2 next first) rest

theorem throughout_of_invariant {invariant property : σ → Prop}
    (preserved : ∀ state action next, invariant state → step state action = some next →
      invariant next)
    (suffices_property : ∀ state, invariant state → property state) {state : σ}
    (initially : invariant state) (actions : List α) : Throughout step property state actions := by
  induction actions generalizing state with
  | nil => exact suffices_property state initially
  | cons action actions induction =>
      refine ⟨suffices_property state initially, fun next taken => ?_⟩
      exact induction (preserved state action next initially taken)

/-- A property that one step keeps exactly when it meets a condition holds throughout the runs all
of whose steps meet the condition, and throughout no others. -/
theorem throughout_iff_meets {invariant property : σ → Prop} {condition : σ → α → Prop}
    (preserved : ∀ state action next, invariant state → step state action = some next →
      invariant next)
    (exact_step : ∀ state action next, invariant state → property state →
      step state action = some next → (property next ↔ condition state action))
    {state : σ} (initially : invariant state) (holds : property state) (actions : List α) :
    Throughout step property state actions ↔ Meets step condition state actions := by
  induction actions generalizing state with
  | nil => exact iff_of_true holds trivial
  | cons action actions induction =>
      constructor
      · rintro ⟨-, later⟩ next taken
        have holds_next := (later next taken).initially
        refine ⟨(exact_step state action next initially holds taken).mp holds_next, ?_⟩
        exact (induction (preserved state action next initially taken) holds_next).mp
          (later next taken)
      · intro meets
        refine ⟨holds, fun next taken => ?_⟩
        have holds_next := (exact_step state action next initially holds taken).mpr
          (meets next taken).1
        exact (induction (preserved state action next initially taken) holds_next).mpr
          (meets next taken).2

/-- The condition of a step in the middle of a run. -/
theorem Meets.at {condition : σ → α → Prop} {state middle next : σ} {front back : List α}
    {action : α} (meets : Meets step condition state (front ++ action :: back))
    (reached : run step state front = some middle) (taken : step middle action = some next) :
    condition middle action := by
  induction front generalizing state with
  | nil =>
      obtain rfl := Option.some.inj reached
      exact (meets next taken).1
  | cons first front induction =>
      obtain ⟨later, stepped, rest⟩ := run_cons_eq_some.mp reached
      exact induction (meets later stepped).2 rest

/-- Conditions that agree under an invariant are met by the same runs of admissible actions. -/
theorem meets_congr {invariant : σ → Prop} {admissible : α → Prop} {first second : σ → α → Prop}
    (preserved : ∀ state action next, admissible action → invariant state →
      step state action = some next → invariant next)
    (agree : ∀ state action next, admissible action → invariant state →
      step state action = some next → (first state action ↔ second state action))
    {state : σ} {actions : List α} (admitted : ∀ action ∈ actions, admissible action)
    (initially : invariant state) :
    Meets step first state actions ↔ Meets step second state actions := by
  induction actions generalizing state with
  | nil => exact Iff.rfl
  | cons action actions induction =>
      have here := admitted action List.mem_cons_self
      apply forall_congr'
      intro next
      apply imp_congr_right
      intro taken
      refine and_congr (agree state action next here initially taken) ?_
      exact induction (fun later member => admitted later (List.mem_cons_of_mem action member))
        (preserved state action next here initially taken)

end Execution
