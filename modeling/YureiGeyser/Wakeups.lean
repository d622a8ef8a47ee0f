import YureiGeyser.QueueThreads
import YureiGeyser.Library.Station

/-!
# No lost wakeups

Each condition variable of the queue is a station: producers wait at `not_full` for free places and
consumers at `not_empty` for events.  A successful call takes a unit at its own station and gives
one to the other, where it signals.
-/

namespace YureiGeyser

/-- The condition variable that a successful call signals. -/
def Condition.other : Condition → Condition
  | .notEmpty => .notFull
  | .notFull => .notEmpty

@[simp] theorem Condition.other_other (condition : Condition) :
    condition.other.other = condition := by
  cases condition <;> rfl

theorem Condition.eq_or_eq_other (condition mine : Condition) :
    condition = mine ∨ condition = mine.other := by
  cases condition <;> cases mine <;> decide

/-- A thread was woken from a condition variable and does not have the lock yet. -/
def ThreadState.wokenFrom (condition : Condition) : ThreadState → Bool
  | .woken call => call.condition = condition
  | _ => false

/-- What the waiters of a condition variable wait for: free places or events. -/
def Queue.available (queue : Queue) : Condition → ℕ
  | .notFull => queue.capacity - queue.size
  | .notEmpty => queue.size

/-- The station of a condition variable. -/
def System.station (system : System) (condition : Condition) : Station where
  available := system.queue.available condition
  waiting := system.threads.countP (ThreadState.waitsOn condition)
  woken := system.threads.countP (ThreadState.wokenFrom condition)
  shut := system.queue.closed

/-! ## Calls -/

section Calls

variable {call : Call} {queue queue' : Queue} {metrics metrics' : Metrics} {response : Response}

theorem criticalSection_eq_none (blocked : criticalSection call queue metrics = none) :
    queue.closed = false ∧ queue.available call.condition = 0 := by
  cases call with
  | push event =>
      rw [criticalSection, Option.map_eq_none_iff, eventQueuePush] at blocked
      split at blocked
      · next full =>
          rw [Bool.and_eq_true, Bool.not_eq_true', beq_iff_eq] at full
          refine ⟨full.1, ?_⟩
          rw [Call.condition, Queue.available, full.2, Nat.sub_self]
      · split at blocked <;> cases blocked
  | pop block =>
      rw [criticalSection, Option.map_eq_none_iff, eventQueuePop] at blocked
      split at blocked
      · next empty =>
          rw [Bool.and_eq_true, Bool.not_eq_true', beq_iff_eq] at empty
          exact empty
      · split at blocked <;> cases blocked

/-- A returning call moves one unit from its own station to the other one, or it fails without a
signal because the queue is closed or its station has nothing for it. -/
theorem criticalSection_eq_some (bounded : queue.size ≤ queue.capacity)
    (ran : criticalSection call queue metrics = some (response, queue', metrics')) :
    (queue'.closed = queue.closed ∧ response.signalled = some call.condition.other ∧
      queue'.available call.condition + 1 = queue.available call.condition ∧
      queue'.available call.condition.other = queue.available call.condition.other + 1) ∨
    (queue' = queue ∧ response.signalled = none ∧
      (queue.closed = true ∨ queue.available call.condition = 0)) := by
  cases call with
  | push event =>
      obtain ⟨⟨accepted, queue', metrics'⟩, pushed, same⟩ := Option.map_eq_some_iff.mp ran
      cases same
      rw [eventQueuePush] at pushed
      split at pushed
      · cases pushed
      · next notFull =>
          split at pushed
          · next closed =>
              cases pushed
              exact Or.inr ⟨rfl, rfl, Or.inl closed⟩
          · next opened =>
              cases pushed
              have room : queue.size ≠ queue.capacity := by
                intro full
                simp [full, opened] at notFull
              refine Or.inl ⟨rfl, rfl, ?_, rfl⟩
              simp only [Call.condition, Queue.available]
              omega
  | pop block =>
      obtain ⟨⟨result, queue', metrics'⟩, popped, same⟩ := Option.map_eq_some_iff.mp ran
      cases same
      rw [eventQueuePop] at popped
      split at popped
      · next empty =>
          rw [Bool.and_eq_true, beq_iff_eq] at empty
          split at popped
          · cases popped
            exact Or.inr ⟨rfl, rfl, Or.inr empty.2⟩
          · cases popped
      · split at popped
        · next zero =>
            cases popped
            exact Or.inr ⟨rfl, rfl, Or.inr zero⟩
        · next stored =>
            cases popped
            refine Or.inl ⟨rfl, rfl, ?_, ?_⟩
            · simp only [Call.condition, Queue.available]
              omega
            · simp only [Call.condition, Condition.other, Queue.available]
              omega

end Calls

/-! ## Threads -/

section Threads

variable {threads threads' : List ThreadState} {thread : ℕ} {old new : ThreadState}

theorem countP_set_of_eq (new : ThreadState) (count : ThreadState → Bool)
    (here : threads[thread]? = some old) :
    (threads.set thread new).countP count + (count old).toNat =
      threads.countP count + (count new).toNat := by
  obtain ⟨inside, rfl⟩ := List.getElem?_eq_some_iff.mp here
  rw [List.countP_set inside]
  cases counted : count threads[thread] with
  | false => cases count new <;> simp
  | true =>
      have positive : 0 < threads.countP count :=
        List.countP_pos_iff.mpr ⟨_, List.getElem_mem inside, counted⟩
      cases count new <;> simp <;> omega

/-- A thread that changes outside the sight of a condition variable does not change its counts. -/
theorem countP_set_of_false {count : ThreadState → Bool} (here : threads[thread]? = some old)
    (before : count old = false) (after : count new = false) :
    (threads.set thread new).countP count = threads.countP count := by
  have counted := countP_set_of_eq new count here
  rwa [before, after] at counted

theorem other_ne (call : Call) : ¬ call.condition = call.condition.other := by
  cases call <;> exact Condition.noConfusion

/-- Waking a thread moves it from the waiting ones to the woken ones of its condition variable. -/
theorem woken_counts {call : Call} (here : threads[thread]? = some (.waiting call)) :
    let woken := threads.set thread (.woken call)
    woken.countP (ThreadState.waitsOn call.condition) + 1 =
        threads.countP (ThreadState.waitsOn call.condition) ∧
      woken.countP (ThreadState.wokenFrom call.condition) =
        threads.countP (ThreadState.wokenFrom call.condition) + 1 ∧
      woken.countP (ThreadState.waitsOn call.condition.other) =
        threads.countP (ThreadState.waitsOn call.condition.other) ∧
      woken.countP (ThreadState.wokenFrom call.condition.other) =
        threads.countP (ThreadState.wokenFrom call.condition.other) := by
  have foreign : decide (call.condition = call.condition.other) = false :=
    decide_eq_false (other_ne call)
  have waiting := countP_set_of_eq (.woken call) (ThreadState.waitsOn call.condition) here
  have woken := countP_set_of_eq (.woken call) (ThreadState.wokenFrom call.condition) here
  simp only [ThreadState.waitsOn, ThreadState.wokenFrom, decide_true, Bool.toNat_true,
    Bool.toNat_false, Nat.add_zero] at waiting woken
  exact ⟨waiting, woken, countP_set_of_false here foreign rfl, countP_set_of_false here rfl foreign⟩

/-- A signal wakes one waiter of its condition variable, if there is one. -/
theorem signal_counts {condition : Condition} {wake : Option ℕ}
    (signalled : signal condition wake threads = some threads') :
    threads'.countP (ThreadState.waitsOn condition) =
        threads.countP (ThreadState.waitsOn condition) - 1 ∧
      (threads.countP (ThreadState.waitsOn condition) ≠ 0 →
        threads'.countP (ThreadState.wokenFrom condition) =
          threads.countP (ThreadState.wokenFrom condition) + 1) ∧
      threads'.countP (ThreadState.waitsOn condition.other) =
        threads.countP (ThreadState.waitsOn condition.other) ∧
      threads'.countP (ThreadState.wokenFrom condition.other) =
        threads.countP (ThreadState.wokenFrom condition.other) := by
  cases wake with
  | none =>
      rw [signal] at signalled
      split at signalled
      · cases signalled
      · next nobody =>
          cases signalled
          have zero : threads.countP (ThreadState.waitsOn condition) = 0 := by
            rw [List.countP_eq_zero]
            intro state member waits
            exact nobody (List.any_eq_true.mpr ⟨state, member, waits⟩)
          rw [zero]
          exact ⟨rfl, fun absurd => (absurd rfl).elim, rfl, rfl⟩
  | some sleeper =>
      simp only [signal] at signalled
      split at signalled
      · next state here =>
          split at signalled
          · next waits =>
              cases signalled
              cases state with
              | waiting call =>
                  obtain rfl : call.condition = condition := of_decide_eq_true waits
                  obtain ⟨waiting, woken, others⟩ := woken_counts here
                  exact ⟨Nat.eq_sub_of_add_eq waiting, fun _ => woken, others⟩
              | idle => cases waits
              | woken call => cases waits
          · cases signalled
      · cases signalled

end Threads

/-! ## Moves -/

namespace System

variable {system next : System}

/-- A thread in possession of the lock does not wait, and it was woken at most from its own
condition variable. -/
structure Holds (system : System) (thread : ℕ) (call : Call) (old : ThreadState) : Prop where
  here : system.threads[thread]? = some old
  awake : ∀ condition, old.waitsOn condition = false
  foreign : old.wokenFrom call.condition.other = false

/-- A call that blocks goes to sleep at its own station. -/
theorem Holds.sleeps {thread : ℕ} {call : Call} {old : ThreadState}
    (holds : system.Holds thread call old)
    (blocked : criticalSection call system.queue system.metrics = none) (condition : Condition) :
    (system.station condition).Moves
      (station { system with threads := system.threads.set thread (.waiting call) } condition) := by
  obtain ⟨opened, nothing⟩ := criticalSection_eq_none blocked
  rcases condition.eq_or_eq_other call.condition with rfl | rfl
  · exact .sleep nothing opened
  · have foreign : decide (call.condition = call.condition.other) = false :=
      decide_eq_false (other_ne call)
    apply Station.Moves.stay
    simp only [station, Station.mk.injEq, true_and, and_true]
    exact ⟨countP_set_of_false holds.here (holds.awake _) foreign,
      countP_set_of_false holds.here holds.foreign rfl⟩

/-- The counts when the thread has left the functions of the queue. -/
theorem Holds.idle_counts {thread : ℕ} {call : Call} {old : ThreadState}
    (holds : system.Holds thread call old) :
    let idled := system.threads.set thread .idle
    (∀ condition, idled.countP (ThreadState.waitsOn condition) =
        system.threads.countP (ThreadState.waitsOn condition)) ∧
      system.threads.countP (ThreadState.wokenFrom call.condition) ≤
        idled.countP (ThreadState.wokenFrom call.condition) + 1 ∧
      idled.countP (ThreadState.wokenFrom call.condition.other) =
        system.threads.countP (ThreadState.wokenFrom call.condition.other) := by
  refine ⟨fun condition => countP_set_of_false holds.here (holds.awake condition) rfl, ?_,
    countP_set_of_false holds.here holds.foreign rfl⟩
  have counted := countP_set_of_eq .idle (ThreadState.wokenFrom call.condition) holds.here
  have one := Bool.toNat_le (old.wokenFrom call.condition)
  omega

/-- A call that returns takes a unit at its own station and gives one to the other, or it gives
up. -/
theorem Holds.returns {thread : ℕ} {call : Call} {old : ThreadState}
    (holds : system.Holds thread call old) (bounded : system.queue.size ≤ system.queue.capacity)
    {response : Response} (ran : criticalSection call system.queue system.metrics =
      some (response, next.queue, next.metrics))
    {wake : Option ℕ}
    (announced : response.announce wake (system.threads.set thread .idle) = some next.threads)
    (condition : Condition) : (system.station condition).Moves (next.station condition) := by
  obtain ⟨idle_waiting, idle_own, idle_other⟩ := holds.idle_counts
  rw [Response.announce] at announced
  rcases criticalSection_eq_some bounded ran with
    ⟨closed, signalled, taken, given⟩ | ⟨same, silent, cause⟩
  · rw [signalled] at announced
    obtain ⟨waiting, woken, waiting_own, woken_own⟩ := signal_counts announced
    rw [Condition.other_other] at waiting_own woken_own
    rw [idle_waiting] at waiting waiting_own woken
    rw [idle_other] at woken
    rcases condition.eq_or_eq_other call.condition with rfl | rfl
    · exact .take taken waiting_own (by rw [station, station, woken_own]; exact idle_own) closed
    · exact .give given waiting woken closed
  · rw [silent] at announced
    have threads : system.threads.set thread .idle = next.threads := Option.some.inj announced
    rw [threads] at idle_waiting idle_other
    rcases condition.eq_or_eq_other call.condition with rfl | rfl
    · refine .leave ?_ (idle_waiting _) ?_ cause
      · rw [station, station, same]
      · rw [station, station, same]
    · apply Station.Moves.stay
      rw [station, station, same, idle_waiting, idle_other]

theorem Holds.attempt_moves {thread : ℕ} {call : Call} {old : ThreadState}
    (holds : system.Holds thread call old) (bounded : system.queue.size ≤ system.queue.capacity)
    {wake : Option ℕ} (attempted : system.attempt thread call wake = some next)
    (condition : Condition) : (system.station condition).Moves (next.station condition) := by
  rw [attempt] at attempted
  cases ran : criticalSection call system.queue system.metrics with
  | none =>
      rw [ran] at attempted
      cases attempted
      exact holds.sleeps ran condition
  | some outcome =>
      obtain ⟨response, queue, metrics⟩ := outcome
      rw [ran] at attempted
      obtain ⟨threads, announced, rfl⟩ := Option.map_eq_some_iff.mp attempted
      exact holds.returns bounded ran announced condition

/-- Every action is a move at both stations. -/
theorem step_moves {action : Action} (bounded : system.queue.size ≤ system.queue.capacity)
    (stepped : system.step action = some next) (condition : Condition) :
    (system.station condition).Moves (next.station condition) := by
  cases action with
  | call thread call wake =>
      obtain ⟨here, attempted⟩ := Option.ite_none_right_eq_some.mp stepped
      exact Holds.attempt_moves ⟨here, fun _ => rfl, rfl⟩ bounded attempted condition
  | resume thread wake =>
      rw [step] at stepped
      split at stepped
      · next call here =>
          have foreign : decide (call.condition = call.condition.other) = false :=
            decide_eq_false (other_ne call)
          exact Holds.attempt_moves ⟨here, fun _ => rfl, foreign⟩ bounded stepped condition
      · cases stepped
  | close thread =>
      obtain ⟨here, ⟨⟩⟩ := Option.ite_none_right_eq_some.mp stepped
      apply Station.Moves.shut
      rw [station, List.countP_map, List.countP_eq_zero]
      intro state member
      cases state <;> exact Bool.false_ne_true
  | spurious thread =>
      rw [step] at stepped
      split at stepped
      · next call here =>
          cases stepped
          obtain ⟨waiting, woken, waiting_other, woken_other⟩ := woken_counts here
          rcases condition.eq_or_eq_other call.condition with rfl | rfl
          · exact .wake rfl (Nat.le_of_succ_le waiting.le) ((Nat.le_succ _).trans woken.ge) rfl
          · apply Station.Moves.stay
            rw [station, station, waiting_other, woken_other]
      · cases stepped

/-- Both stations of a reachable system are attended. -/
theorem run_attended {capacity : ℕ} (positive : 0 < capacity) {threads : ℕ} {actions : List Action}
    (execution : Execution.run step (start capacity threads) actions = some system) :
    (∃ channel : Channel Event capacity, system.Consistent channel) ∧
      ∀ condition, (system.station condition).Attended := by
  have preserved : ∀ before action after,
      ((∃ channel : Channel Event capacity, Consistent before channel) ∧
        ∀ condition, (station before condition).Attended) →
        step before action = some after →
          (∃ channel : Channel Event capacity, Consistent after channel) ∧
            ∀ condition, (station after condition).Attended := by
    rintro before action after ⟨⟨channel, consistent⟩, attended⟩ stepped
    refine ⟨step_consistent consistent stepped, fun condition => ?_⟩
    have bounded : before.queue.size ≤ before.queue.capacity := by
      rw [consistent.represents.capacity_eq]
      exact consistent.represents.size_le
    exact (attended condition).moves (step_moves bounded stepped condition)
  refine Execution.run_invariant preserved ⟨⟨Channel.empty, start_consistent positive threads⟩, ?_⟩
    execution
  intro condition sleepers
  obtain ⟨state, member, waits⟩ := List.countP_pos_iff.mp sleepers
  rw [List.eq_of_mem_replicate member] at waits
  cases waits

/-- The queue is open while a thread sleeps, and the woken threads can take all the units that it
waits for. -/
theorem eventQueue_no_lost_wakeup {capacity : ℕ} (positive : 0 < capacity) (threads : ℕ)
    (actions : List Action)
    (execution : Execution.run step (start capacity threads) actions = some system) :
    (∀ event, .waiting (.push event) ∈ system.threads → system.queue.closed = false ∧
      capacity - system.queue.size ≤
        system.threads.countP (ThreadState.wokenFrom .notFull)) ∧
    (∀ block, .waiting (.pop block) ∈ system.threads → system.queue.closed = false ∧
      system.queue.size ≤ system.threads.countP (ThreadState.wokenFrom .notEmpty)) ∧
    ∀ call, .waiting call ∈ system.threads → system.queue.closed = false ∧
      (0 < system.queue.available call.condition →
        ∃ state ∈ system.threads, state.wokenFrom call.condition = true) := by
  obtain ⟨⟨channel, consistent⟩, attended⟩ := run_attended positive execution
  have enough : ∀ call, .waiting call ∈ system.threads → system.queue.closed = false ∧
      system.queue.available call.condition ≤
        system.threads.countP (ThreadState.wokenFrom call.condition) := by
    intro call sleeping
    apply attended call.condition
    exact List.countP_pos_iff.mpr ⟨_, sleeping, decide_eq_true rfl⟩
  refine ⟨fun event sleeping => ?_, fun block sleeping => enough (.pop block) sleeping,
    fun call sleeping => ?_⟩
  · rw [← consistent.represents.capacity_eq]
    exact enough (.push event) sleeping
  · obtain ⟨opened, units⟩ := enough call sleeping
    exact ⟨opened, fun some_unit => List.countP_pos_iff.mp (some_unit.trans_le units)⟩

/-- Two producers wait at a full ring of one place, and a pop wakes one of them. -/
theorem eventQueue_no_lost_wakeup_two_producers :
    ∃ system, Execution.run step (start 1 3)
        [.call 0 (.push Event.zero) none, .call 1 (.push Event.zero) none,
          .call 2 (.push Event.zero) none, .call 0 (.pop true) (some 2)] = some system ∧
      system.threads = [.idle, .waiting (.push Event.zero), .woken (.push Event.zero)] ∧
      ((∀ event, .waiting (.push event) ∈ system.threads → system.queue.closed = false ∧
        1 - system.queue.size ≤ system.threads.countP (ThreadState.wokenFrom .notFull)) ∧
      (∀ block, .waiting (.pop block) ∈ system.threads → system.queue.closed = false ∧
        system.queue.size ≤ system.threads.countP (ThreadState.wokenFrom .notEmpty)) ∧
      ∀ call, .waiting call ∈ system.threads → system.queue.closed = false ∧
        (0 < system.queue.available call.condition →
          ∃ state ∈ system.threads, state.wokenFrom call.condition = true)) := by
  have threads : (Execution.run step (start 1 3)
      [.call 0 (.push Event.zero) none, .call 1 (.push Event.zero) none,
        .call 2 (.push Event.zero) none, .call 0 (.pop true) (some 2)]).map System.threads =
      some [.idle, .waiting (.push Event.zero), .woken (.push Event.zero)] := by
    decide
  obtain ⟨system, execution, threads⟩ := Option.map_eq_some_iff.mp threads
  exact ⟨system, execution, threads, eventQueue_no_lost_wakeup Nat.zero_lt_one 3 _ execution⟩

end System

end YureiGeyser
