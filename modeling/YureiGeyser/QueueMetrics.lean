import YureiGeyser.QueueThreads
import YureiGeyser.Library.Peak

/-!
# The metrics of the queue

The counters of the pushes and the pops differ by what is in the ring, and the high-water mark is
the largest size that the ring has had.  Both are updated under the lock of the queue, so nothing
but the calls on this queue changes them.
-/

namespace YureiGeyser

open Metrics

/-- What a returning call has done to the size of the ring and to the counters. -/
theorem criticalSection_counts {call : Call} {queue queue' : Queue} {metrics metrics' : Metrics}
    {response : Response}
    (ran : criticalSection call queue metrics = some (response, queue', metrics')) :
    (queue'.size = queue.size ∧ metrics' = metrics) ∨
      (queue'.size = queue.size + 1 ∧
        metrics' = metrics.incQueuePush.updateQueueHighWater (UInt64.ofNat queue'.size)) ∨
      (queue'.size + 1 = queue.size ∧ metrics' = metrics.incQueuePop) := by
  cases call with
  | push event =>
      obtain ⟨⟨accepted, shared⟩, pushed, same⟩ := Option.map_eq_some_iff.mp ran
      cases same
      rw [eventQueuePush] at pushed
      split at pushed
      · cases pushed
      · split at pushed
        · cases pushed
          exact .inl ⟨rfl, rfl⟩
        · cases pushed
          exact .inr (.inl ⟨rfl, rfl⟩)
  | pop block =>
      obtain ⟨⟨result, shared⟩, popped, same⟩ := Option.map_eq_some_iff.mp ran
      cases same
      rw [eventQueuePop] at popped
      split at popped
      · split at popped
        · cases popped
          exact .inl ⟨rfl, rfl⟩
        · cases popped
      · split at popped
        · cases popped
          exact .inl ⟨rfl, rfl⟩
        · next nonempty =>
            cases popped
            exact .inr (.inr ⟨Nat.succ_pred_eq_of_ne_zero nonempty, rfl⟩)

namespace System

variable {capacity : UInt64} {system next : System}

/-- A step that is not a returning call leaves the size and the counters alone. -/
theorem step_counts {action : Action} (stepped : system.step action = some next) :
    (next.queue.size = system.queue.size ∧ next.metrics = system.metrics) ∨
      ∃ call response, criticalSection call system.queue system.metrics =
        some (response, next.queue, next.metrics) := by
  have attempts : ∀ thread call wake, system.attempt thread call wake = some next →
      (next.queue.size = system.queue.size ∧ next.metrics = system.metrics) ∨
        ∃ call response, criticalSection call system.queue system.metrics =
          some (response, next.queue, next.metrics) := by
    intro thread call wake attempted
    rw [attempt] at attempted
    cases ran : criticalSection call system.queue system.metrics with
    | none =>
        rw [ran] at attempted
        cases attempted
        exact .inl ⟨rfl, rfl⟩
    | some outcome =>
        obtain ⟨response, queue, metrics⟩ := outcome
        rw [ran] at attempted
        obtain ⟨threads, -, rfl⟩ := Option.map_eq_some_iff.mp attempted
        exact .inr ⟨call, response, ran⟩
  cases action with
  | call thread call wake =>
      rw [step] at stepped
      split at stepped
      · exact attempts thread call wake stepped
      · cases stepped
  | resume thread wake =>
      rw [step] at stepped
      split at stepped
      · exact attempts thread _ wake stepped
      · cases stepped
  | close thread =>
      rw [step] at stepped
      split at stepped
      · cases stepped
        exact .inl ⟨rfl, rfl⟩
      · cases stepped
  | spurious thread =>
      rw [step] at stepped
      split at stepped
      · cases stepped
        exact .inl ⟨rfl, rfl⟩
      · cases stepped

/-- The sizes of the ring on the way of a run. -/
def visitedSizes (system : System) : List Action → List ℕ
  | [] => [system.queue.size]
  | action :: actions =>
      match system.step action with
      | none => [system.queue.size]
      | some next => system.queue.size :: visitedSizes next actions

/-- The counters agree with the ring and with the sizes that it has had. -/
structure Measured (capacity : UInt64) (system : System) (sizes : Set ℕ) : Prop where
  consistent : ∃ channel : Channel Event capacity.toNat, system.Consistent channel
  visited : system.queue.size ∈ sizes
  bounded : ∀ size ∈ sizes, size ≤ capacity.toNat
  balance : system.metrics.queuePushes =
    system.metrics.queuePops + UInt64.ofNat system.queue.size
  peak : Peak 0 sizes sizes system.metrics.queueHighWater.toNat

theorem start_measured (positive : 0 < capacity) (threads : ℕ) :
    Measured capacity (start capacity.toNat threads) {0} where
  consistent := ⟨Channel.empty, start_consistent (UInt64.lt_iff_toNat_lt.mp positive) threads⟩
  visited := rfl
  bounded := by
    rintro size rfl
    exact Nat.zero_le _
  balance := rfl
  peak := (Peak.start 0 _).settle (Nat.zero_le 0) fun _ => .inl

/-- A size that the mark has reached before changes nothing. -/
theorem peak_revisit {sizes : Set ℕ} {size value : ℕ} (peak : Peak 0 sizes sizes value)
    (below : size ≤ value) : Peak 0 (insert size sizes) (insert size sizes) value :=
  (peak.offer size).settle below subset_rfl

/-- A push raises the mark to the new size, if it was not there before. -/
theorem peak_push {sizes : Set ℕ} {size : ℕ} {metrics : Metrics}
    (peak : Peak 0 sizes sizes metrics.queueHighWater.toNat) (small : size < 2 ^ 64) :
    Peak 0 (insert size sizes) (insert size sizes)
      (metrics.updateQueueHighWater (UInt64.ofNat size)).queueHighWater.toNat := by
  have number : (UInt64.ofNat size).toNat = size := UInt64.toNat_ofNat_of_lt' small
  rw [updateQueueHighWater_queueHighWater]
  split
  · next above =>
      rw [gt_iff_lt, UInt64.lt_iff_toNat_lt, number] at above
      rw [number]
      exact (peak.offer size).raise (Set.mem_insert size sizes) above.le subset_rfl
  · next notAbove =>
      rw [gt_iff_lt, UInt64.lt_iff_toNat_lt, number, not_lt] at notAbove
      exact peak_revisit peak notAbove

/-- Every step keeps the counters exact. -/
theorem Measured.step {sizes : Set ℕ} {action : Action}
    (measured : Measured capacity system sizes) (stepped : system.step action = some next) :
    Measured capacity next (insert next.queue.size sizes) := by
  obtain ⟨channel, consistent⟩ := measured.consistent
  obtain ⟨after, consistent'⟩ := step_consistent consistent stepped
  have size_le := consistent'.represents.size_le
  have below := measured.peak.settled_le _ measured.visited
  have counts : (next.queue.size = system.queue.size ∧ next.metrics = system.metrics) ∨
      (next.queue.size = system.queue.size + 1 ∧ next.metrics =
        system.metrics.incQueuePush.updateQueueHighWater (UInt64.ofNat next.queue.size)) ∨
      (next.queue.size + 1 = system.queue.size ∧ next.metrics = system.metrics.incQueuePop) := by
    rcases step_counts stepped with same | ⟨call, response, ran⟩
    · exact .inl same
    · exact criticalSection_counts ran
  refine ⟨⟨after, consistent'⟩, Set.mem_insert _ _, ?_, ?_, ?_⟩
  · rintro size (rfl | member)
    · exact size_le
    · exact measured.bounded size member
  · rcases counts with ⟨size, metrics⟩ | ⟨size, metrics⟩ | ⟨size, metrics⟩
    · rw [metrics, size]
      exact measured.balance
    · rw [metrics, size, UInt64.ofNat_add, updateQueueHighWater_queuePushes,
        updateQueueHighWater_queuePops, incQueuePush]
      simp only [measured.balance, UInt64.add_assoc]
      rfl
    · rw [metrics, incQueuePop]
      simp only [measured.balance, ← size, UInt64.ofNat_add]
      rw [UInt64.add_assoc, UInt64.add_comm 1]
      rfl
  · rcases counts with ⟨size, metrics⟩ | ⟨size, metrics⟩ | ⟨size, metrics⟩
    · rw [metrics]
      exact peak_revisit measured.peak (size.trans_le below)
    · rw [metrics]
      exact peak_push measured.peak (size_le.trans_lt capacity.toNat_lt)
    · have smaller : next.queue.size ≤ system.queue.size := by omega
      rw [metrics]
      exact peak_revisit measured.peak (smaller.trans below)

theorem mem_visitedSizes (system : System) (actions : List Action) :
    system.queue.size ∈ visitedSizes system actions := by
  cases actions with
  | nil => exact List.mem_singleton.mpr rfl
  | cons action actions =>
      rw [visitedSizes]
      split <;> exact List.mem_cons_self

/-- A run keeps the counters exact. -/
theorem Measured.run {sizes : Set ℕ} {actions : List Action} {final : System}
    (measured : Measured capacity system sizes)
    (execution : Execution.run System.step system actions = some final) :
    Measured capacity final (sizes ∪ {size | size ∈ visitedSizes system actions}) := by
  induction actions generalizing system sizes with
  | nil =>
      obtain rfl := Option.some.inj execution
      have nothing : sizes ∪ {size | size ∈ visitedSizes system []} = sizes := by
        refine Set.union_eq_self_of_subset_right fun size member => ?_
        rw [List.mem_singleton.mp member]
        exact measured.visited
      rwa [nothing]
  | cons action actions ih =>
      obtain ⟨next, stepped, rest⟩ := Execution.run_cons_eq_some.mp execution
      have here := mem_visitedSizes next actions
      have sizes_eq : sizes ∪ {size | size ∈ visitedSizes system (action :: actions)} =
          insert next.queue.size sizes ∪ {size | size ∈ visitedSizes next actions} := by
        have visited := measured.visited
        ext size
        simp only [visitedSizes, stepped, List.mem_cons, Set.mem_union, Set.mem_insert_iff,
          Set.mem_ofPred_eq]
        constructor
        · rintro (old | rfl | later)
          · exact .inl (.inr old)
          · exact .inl (.inr visited)
          · exact .inr later
        · rintro ((rfl | old) | later)
          · exact .inr (.inr here)
          · exact .inl old
          · exact .inr (.inr later)
      rw [sizes_eq]
      exact ih (measured.step stepped) rest

/-- Whatever the threads do, the pushes are the pops and what is in the ring, and the high-water
mark is the largest size that the ring has had. -/
theorem queueMetrics_exact (positive : 0 < capacity) (threads : ℕ) {actions : List Action}
    (execution : Execution.run step (start capacity.toNat threads) actions = some system) :
    system.metrics.queuePushes = system.metrics.queuePops + UInt64.ofNat system.queue.size ∧
      IsGreatest {size | size ∈ visitedSizes (start capacity.toNat threads) actions}
        system.metrics.queueHighWater.toNat ∧
      system.metrics.queueHighWater ≤ capacity ∧
      ∀ more later, Execution.run step system more = some later →
        system.metrics.queueHighWater ≤ later.metrics.queueHighWater := by
  have initially : 0 ∈ {size | size ∈ visitedSizes (start capacity.toNat threads) actions} :=
    mem_visitedSizes (start capacity.toNat threads) actions
  have measured := (start_measured positive threads).run execution
  rw [Set.singleton_union, Set.insert_eq_of_mem initially] at measured
  have greatest := measured.peak.isGreatest subset_rfl
  rw [Set.insert_eq_of_mem initially] at greatest
  refine ⟨measured.balance, greatest, ?_, ?_⟩
  · exact UInt64.le_iff_toNat_le.mpr (measured.bounded _ greatest.1)
  · intro more later continued
    have afterwards := measured.run continued
    exact UInt64.le_iff_toNat_le.mpr (afterwards.peak.settled_le _ (.inl greatest.1))

/-- Two pushes and a pop on a ring of two places. -/
theorem queueMetrics_exact_two_pushes :
    ∃ system, Execution.run step (start (2 : UInt64).toNat 1)
        [.call 0 (.push Event.zero) none, .call 0 (.push Event.zero) none,
          .call 0 (.pop true) none] = some system ∧
      system.metrics.queuePushes = system.metrics.queuePops + UInt64.ofNat system.queue.size ∧
      system.metrics.queueHighWater = 2 ∧ system.queue.size = 1 := by
  have counted : (Execution.run step (start (2 : UInt64).toNat 1)
      [.call 0 (.push Event.zero) none, .call 0 (.push Event.zero) none,
        .call 0 (.pop true) none]).map
        (fun system => (system.metrics.queueHighWater, system.queue.size)) = some (2, 1) := by
    decide
  obtain ⟨system, execution, same⟩ := Option.map_eq_some_iff.mp counted
  obtain ⟨highWater, size⟩ := Prod.mk.inj same
  exact ⟨system, execution, (queueMetrics_exact (by decide) 1 execution).1, highWater, size⟩

end System

end YureiGeyser
