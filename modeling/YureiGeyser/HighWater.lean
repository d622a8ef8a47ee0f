import YureiGeyser.Metrics
import YureiGeyser.Library.Execution
import YureiGeyser.Library.Peak

/-!
# The high-water mark under contention

Any number of threads call `metrics_update_queue_high_water` at the same time.  A step runs one of
them up to and including its next access to the shared counter, so every order of the atomic loads
and exchanges is an order of steps.  The weak exchange may fail although the counter has the
expected value.
-/

namespace YureiGeyser

/-- Where a call of `metrics_update_queue_high_water` is. -/
inductive HighWaterPoint
  /-- Before the atomic load. -/
  | entered
  /-- At the test of the loop, with the local variable `current`. -/
  | looping (current : UInt64)
  | returned
  deriving DecidableEq

/-- A call of `metrics_update_queue_high_water`. -/
structure HighWaterCall where
  size : UInt64
  point : HighWaterPoint
  deriving DecidableEq

/-- The counter and the calls that want to raise it. -/
structure HighWater where
  queueHighWater : UInt64
  calls : List HighWaterCall
  deriving DecidableEq

/-- `atomic_compare_exchange_weak`: the success, the counter and the variable `current`. -/
def compareExchangeWeak (spurious : Bool) (counter current desired : UInt64) :
    Bool × UInt64 × UInt64 :=
  if counter = current && !spurious then (true, desired, current) else (false, counter, counter)

/-- `metrics_update_queue_high_water`, from one access to the counter to behind the next one. -/
def metricsUpdateQueueHighWater (spurious : Bool) (counter : UInt64) (call : HighWaterCall) :
    Option (UInt64 × HighWaterCall) :=
  match call.point with
  | .entered => some (counter, { call with point := .looping counter })
  | .looping current =>
      if call.size > current then
        let (success, counter, current) := compareExchangeWeak spurious counter current call.size
        some (counter, { call with point := if success then .returned else .looping current })
      else some (counter, { call with point := .returned })
  | .returned => none

namespace HighWater

/-- The calls before any of them has read the counter. -/
def start (initial : UInt64) (sizes : List UInt64) : HighWater where
  queueHighWater := initial
  calls := sizes.map fun size => { size, point := .entered }

/-- A step of one of the calls. -/
def step (system : HighWater) : ℕ × Bool → Option HighWater
  | (thread, spurious) =>
      match system.calls[thread]? with
      | none => none
      | some call =>
          (metricsUpdateQueueHighWater spurious system.queueHighWater call).map
            fun (queueHighWater, call) =>
              { queueHighWater, calls := system.calls.set thread call }

/-! ## What a step can do -/

/-- What one call does to the counter and to itself. -/
inductive Moves (counter : UInt64) (call : HighWaterCall) : UInt64 → HighWaterCall → Prop
  | load (here : call.point = .entered) :
      Moves counter call counter { call with point := .looping counter }
  | raise (here : call.point = .looping counter) (above : counter < call.size) :
      Moves counter call call.size { call with point := .returned }
  | retry {current : UInt64} (here : call.point = .looping current) :
      Moves counter call counter { call with point := .looping counter }
  | leave {current : UInt64} (here : call.point = .looping current) (enough : call.size ≤ current) :
      Moves counter call counter { call with point := .returned }

theorem compareExchangeWeak_cases (spurious : Bool) (counter current desired : UInt64) :
    (counter = current ∧
        compareExchangeWeak spurious counter current desired = (true, desired, current)) ∨
      compareExchangeWeak spurious counter current desired = (false, counter, counter) := by
  rw [compareExchangeWeak]
  split
  · next same =>
      rw [Bool.and_eq_true, decide_eq_true_eq] at same
      exact .inl ⟨same.1, rfl⟩
  · exact .inr rfl

theorem moves_of_metricsUpdateQueueHighWater {spurious : Bool} {counter counter' : UInt64}
    {call call' : HighWaterCall}
    (moved : metricsUpdateQueueHighWater spurious counter call = some (counter', call')) :
    Moves counter call counter' call' := by
  rw [metricsUpdateQueueHighWater] at moved
  split at moved
  · next here =>
      cases moved
      exact .load here
  · next current here =>
      split at moved
      · next above =>
          rcases compareExchangeWeak_cases spurious counter current call.size with
            ⟨rfl, exchanged⟩ | exchanged
          · rw [exchanged] at moved
            cases moved
            exact .raise here above
          · rw [exchanged] at moved
            cases moved
            exact .retry here
      · next enough =>
          cases moved
          exact .leave here (UInt64.not_lt.mp enough)
  · cases moved

theorem step_eq_some {system next : HighWater} {thread : ℕ} {spurious : Bool}
    (stepped : system.step (thread, spurious) = some next) :
    ∃ call call', system.calls[thread]? = some call ∧
      next.calls = system.calls.set thread call' ∧
      Moves system.queueHighWater call next.queueHighWater call' := by
  rw [step] at stepped
  split at stepped
  · cases stepped
  · next call here =>
      obtain ⟨⟨counter, call'⟩, moved, rfl⟩ := Option.map_eq_some_iff.mp stepped
      exact ⟨call, call', here, rfl, moves_of_metricsUpdateQueueHighWater moved⟩

/-! ## Runs -/

/-- The sizes of the calls that have returned. -/
def settled (system : HighWater) : Set UInt64 :=
  {size | ⟨size, .returned⟩ ∈ system.calls}

/-- What the calls know about the counter. -/
structure Sound (initial : UInt64) (sizes : List UInt64) (system : HighWater) : Prop where
  sizes_eq : system.calls.map HighWaterCall.size = sizes
  /-- No call has read more than the counter holds. -/
  loaded : ∀ size current, ⟨size, .looping current⟩ ∈ system.calls →
    current ≤ system.queueHighWater
  peak : Peak initial {size | size ∈ sizes} system.settled system.queueHighWater

theorem start_sound (initial : UInt64) (sizes : List UInt64) :
    (start initial sizes).Sound initial sizes where
  sizes_eq := by
    rw [start, List.map_map]
    exact List.map_id sizes
  loaded size current member := by
    obtain ⟨other, -, same⟩ := List.mem_map.mp member
    cases same
  peak := by
    refine (Peak.start initial _).settle (Std.le_refl initial) fun size member => ?_
    obtain ⟨other, -, same⟩ := List.mem_map.mp member
    cases same

section Step

variable {initial : UInt64} {sizes : List UInt64} {system next : HighWater}

theorem Moves.size_eq {counter counter' : UInt64} {call call' : HighWaterCall}
    (moves : Moves counter call counter' call') : call'.size = call.size := by
  cases moves <;> rfl

/-- No step lowers the counter. -/
theorem Moves.le {counter counter' : UInt64} {call call' : HighWaterCall}
    (moves : Moves counter call counter' call') : counter ≤ counter' := by
  cases moves with
  | load here => exact Std.le_refl counter
  | raise here above => exact UInt64.le_of_lt above
  | retry here => exact Std.le_refl counter
  | leave here enough => exact Std.le_refl counter

/-- What a call has just read is in the counter. -/
theorem Moves.loaded {counter counter' current size : UInt64} {call call' : HighWaterCall}
    (moves : Moves counter call counter' call') (here : call' = ⟨size, .looping current⟩) :
    current ≤ counter' := by
  cases moves with
  | load =>
      cases here
      exact Std.le_refl counter
  | raise => cases here
  | retry =>
      cases here
      exact Std.le_refl counter
  | leave => cases here

theorem le_of_step {action : ℕ × Bool} (stepped : system.step action = some next) :
    system.queueHighWater ≤ next.queueHighWater := by
  obtain ⟨call, call', -, -, moves⟩ := step_eq_some stepped
  exact moves.le

/-- The calls that have returned after a step are the earlier ones and perhaps the stepping one. -/
theorem settled_subset {thread : ℕ} {call call' : HighWaterCall} (same : call'.size = call.size)
    (calls : next.calls = system.calls.set thread call') :
    next.settled ⊆ insert call.size system.settled := by
  intro size member
  change (⟨size, .returned⟩ : HighWaterCall) ∈ next.calls at member
  rw [calls] at member
  rcases List.mem_or_eq_of_mem_set member with earlier | here
  · exact .inr earlier
  · rw [← here] at same
    exact .inl same

/-- A step of a call that does not return settles nothing. -/
theorem settled_subset_of_looping {thread : ℕ} {size current : UInt64}
    (calls : next.calls = system.calls.set thread ⟨size, .looping current⟩) :
    next.settled ⊆ system.settled := by
  intro other member
  change (⟨other, .returned⟩ : HighWaterCall) ∈ next.calls at member
  rw [calls] at member
  rcases List.mem_or_eq_of_mem_set member with earlier | here
  · exact earlier
  · cases here

theorem Sound.step_peak (sound : system.Sound initial sizes) {thread : ℕ}
    {call call' : HighWaterCall} (here : system.calls[thread]? = some call)
    (calls : next.calls = system.calls.set thread call')
    (moves : Moves system.queueHighWater call next.queueHighWater call') :
    Peak initial {size | size ∈ sizes} next.settled next.queueHighWater := by
  have member : call ∈ system.calls := List.mem_of_getElem? here
  have settles := settled_subset moves.size_eq calls
  generalize next.queueHighWater = counter at moves ⊢
  cases moves with
  | load entered =>
      exact sound.peak.mono (settled_subset_of_looping calls)
  | raise looping above =>
      have offered : call.size ∈ sizes := by
        rw [← sound.sizes_eq]
        exact List.mem_map_of_mem member
      exact sound.peak.raise offered (UInt64.le_of_lt above) settles
  | retry looping =>
      exact sound.peak.mono (settled_subset_of_looping calls)
  | @leave current looping enough =>
      have known := sound.loaded call.size current (by rw [← looping]; exact member)
      exact sound.peak.settle (Std.le_trans enough known) settles

/-- Every step keeps the calls sound. -/
theorem Sound.step {action : ℕ × Bool} (sound : system.Sound initial sizes)
    (stepped : system.step action = some next) : next.Sound initial sizes := by
  obtain ⟨call, call', here, calls, moves⟩ := step_eq_some stepped
  refine ⟨?_, ?_, sound.step_peak here calls moves⟩
  · obtain ⟨inside, rfl⟩ := List.getElem?_eq_some_iff.mp here
    rw [calls, List.map_set, moves.size_eq, ← List.map_set, List.set_getElem_self, sound.sizes_eq]
  · intro size current member
    rw [calls] at member
    rcases List.mem_or_eq_of_mem_set member with earlier | same
    · exact Std.le_trans (sound.loaded size current earlier) moves.le
    · exact moves.loaded same.symm

end Step

theorem run_sound {initial : UInt64} {sizes : List UInt64} {system : HighWater}
    {actions : List (ℕ × Bool)}
    (execution : Execution.run step (start initial sizes) actions = some system) :
    system.Sound initial sizes :=
  Execution.run_invariant (fun _ _ _ sound stepped => sound.step stepped)
    (start_sound initial sizes) execution

/-- However many calls race for the counter, it never decreases, no returned call is above it, and
once all of them have returned it is the maximum of its initial value and the sizes. -/
theorem queueHighWater_maximum {initial : UInt64} {sizes : List UInt64} {system : HighWater}
    {actions : List (ℕ × Bool)}
    (execution : Execution.run step (start initial sizes) actions = some system) :
    system.calls.map HighWaterCall.size = sizes ∧
      (∀ more later, Execution.run step system more = some later →
        system.queueHighWater ≤ later.queueHighWater) ∧
      (∀ size, ⟨size, .returned⟩ ∈ system.calls → size ≤ system.queueHighWater) ∧
      ((∀ call ∈ system.calls, call.point = .returned) →
        IsGreatest {value | value = initial ∨ value ∈ sizes} system.queueHighWater) := by
  have sound := run_sound execution
  refine ⟨sound.sizes_eq, ?_, sound.peak.settled_le, fun all => ?_⟩
  · intro more later continued
    have preserved : ∀ before action after, system.queueHighWater ≤ before.queueHighWater →
        step before action = some after → system.queueHighWater ≤ after.queueHighWater :=
      fun _ _ _ below stepped => Std.le_trans below (le_of_step stepped)
    exact Execution.run_invariant preserved (Std.le_refl _) continued
  · refine sound.peak.isGreatest fun size offered => ?_
    rw [Set.mem_ofPred_eq, ← sound.sizes_eq] at offered
    obtain ⟨call, member, rfl⟩ := List.mem_map.mp offered
    have returned := all call member
    cases call with
    | mk size point =>
        cases returned
        exact member

/-- Two calls have read the counter before either raises it: the smaller one fails to exchange,
finds the larger value and leaves it alone. -/
theorem queueHighWater_maximum_race :
    ∃ system, Execution.run step (start 1 [5, 3])
        [(0, false), (1, false), (0, true), (0, false), (1, false), (1, false)] = some system ∧
      (∀ call ∈ system.calls, call.point = .returned) ∧
      IsGreatest {value | value = 1 ∨ value ∈ [5, 3]} system.queueHighWater := by
  have execution : Execution.run step (start 1 [5, 3])
      [(0, false), (1, false), (0, true), (0, false), (1, false), (1, false)] =
        some ⟨5, [⟨5, .returned⟩, ⟨3, .returned⟩]⟩ := by
    decide
  have all : ∀ call ∈ [(⟨5, .returned⟩ : HighWaterCall), ⟨3, .returned⟩],
      call.point = .returned := by
    decide
  exact ⟨_, execution, all, (queueHighWater_maximum execution).2.2.2 all⟩

/-- A call that nobody disturbs does what `Metrics.updateQueueHighWater` says. -/
theorem updateQueueHighWater_of_returned {metrics : Metrics} {size : UInt64} {system : HighWater}
    {actions : List (ℕ × Bool)}
    (execution : Execution.run step (start metrics.queueHighWater [size]) actions = some system)
    (returned : system.calls = [⟨size, .returned⟩]) :
    (metrics.updateQueueHighWater size).queueHighWater = system.queueHighWater := by
  have sound := run_sound execution
  have enough : size ≤ system.queueHighWater := by
    apply sound.peak.settled_le size
    change (⟨size, .returned⟩ : HighWaterCall) ∈ system.calls
    rw [returned]
    exact List.mem_singleton.mpr rfl
  have grown := sound.peak.initial_le
  have attained : system.queueHighWater = metrics.queueHighWater ∨
      system.queueHighWater = size :=
    sound.peak.attained.imp_right List.mem_singleton.mp
  rw [Metrics.updateQueueHighWater]
  rcases attained with same | same
  · rw [same] at enough ⊢
    rw [if_neg (UInt64.not_lt.mpr enough)]
  · rw [same] at grown ⊢
    split
    · rfl
    · next notAbove => exact UInt64.le_antisymm grown (UInt64.not_lt.mp notAbove)

end HighWater

end YureiGeyser
