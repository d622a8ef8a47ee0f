import YureiGeyser.EventQueue

/-!
# Threads on the event queue

Any number of threads call the functions of the queue.  An action runs a thread from the moment it
gets the lock to the moment it gives it back, so every state of the system has the lock free.  A
waiting thread is woken by a signal, by a broadcast or spuriously, and tests its condition again
when it gets the lock back.
-/

namespace YureiGeyser

/-- A call that may have to wait. -/
inductive Call
  | push (event : Event)
  | pop (block : Bool)
  deriving DecidableEq

/-- The condition variables of the queue. -/
inductive Condition
  | notEmpty
  | notFull
  deriving DecidableEq

/-- The condition variable on which a call waits. -/
def Call.condition : Call → Condition
  | .push _ => .notFull
  | .pop _ => .notEmpty

/-- What a call returns. -/
inductive Response
  | pushed (event : Event) (accepted : Bool)
  | popped (block : Bool) (result : Option Event)
  | closed
  deriving DecidableEq

/-- The condition variable that a returning call has signalled. -/
def Response.signalled : Response → Option Condition
  | .pushed _ true => some .notEmpty
  | .popped _ (some _) => some .notFull
  | _ => none

/-- Where a thread is. -/
inductive ThreadState
  /-- Outside the functions of the queue. -/
  | idle
  /-- In the wait set of the condition variable of its call. -/
  | waiting (call : Call)
  /-- Out of the wait set, but not yet in possession of the lock. -/
  | woken (call : Call)
  deriving DecidableEq

/-- The queue, the counters and the threads, with the history of what the calls have returned. -/
structure System where
  queue : Queue
  metrics : Metrics
  threads : List ThreadState
  history : List Response

/-- What a scheduler can choose.  A signal wakes the thread `wake`. -/
inductive Action
  | call (thread : ℕ) (call : Call) (wake : Option ℕ)
  | resume (thread : ℕ) (wake : Option ℕ)
  | close (thread : ℕ)
  | spurious (thread : ℕ)
  deriving DecidableEq

/-- A thread waits on a condition variable. -/
def ThreadState.waitsOn (condition : Condition) : ThreadState → Bool
  | .waiting call => call.condition = condition
  | _ => false

/-- A waiting thread is woken. -/
def ThreadState.wake : ThreadState → ThreadState
  | .waiting call => .woken call
  | state => state

/-- `pthread_cond_signal`: some waiting thread is woken, if there is one. -/
def signal (condition : Condition) (wake : Option ℕ) (threads : List ThreadState) :
    Option (List ThreadState) :=
  match wake with
  | none => if threads.any (ThreadState.waitsOn condition) then none else some threads
  | some sleeper =>
      match threads[sleeper]? with
      | some state =>
          if state.waitsOn condition then some (threads.set sleeper state.wake) else none
      | none => none

/-- The signal of a returning call. -/
def Response.announce (response : Response) (wake : Option ℕ) (threads : List ThreadState) :
    Option (List ThreadState) :=
  match response.signalled with
  | some condition => signal condition wake threads
  | none => some threads

/-- The code of a call between getting the lock and giving it back. -/
def criticalSection (call : Call) (queue : Queue) (metrics : Metrics) :
    Option (Response × Queue × Metrics) :=
  match call with
  | .push event =>
      (eventQueuePush event queue metrics).map fun (accepted, shared) =>
        (Response.pushed event accepted, shared)
  | .pop block =>
      (eventQueuePop block queue metrics).map fun (result, shared) =>
        (Response.popped block result, shared)

namespace System

/-- The threads of a fresh queue. -/
def start (capacity threads : ℕ) : System where
  queue := eventQueueCreate capacity
  metrics := Metrics.init
  threads := List.replicate threads .idle
  history := []

/-- A thread in possession of the lock runs the code of its call. -/
def attempt (system : System) (thread : ℕ) (call : Call) (wake : Option ℕ) : Option System :=
  match criticalSection call system.queue system.metrics with
  | none => some { system with threads := system.threads.set thread (.waiting call) }
  | some (response, queue, metrics) =>
      (response.announce wake (system.threads.set thread .idle)).map fun threads =>
        { queue, metrics, threads, history := system.history ++ [response] }

/-- One action. -/
def step (system : System) : Action → Option System
  | .call thread call wake =>
      if system.threads[thread]? = some .idle then system.attempt thread call wake else none
  | .resume thread wake =>
      match system.threads[thread]? with
      | some (.woken call) => system.attempt thread call wake
      | _ => none
  | .close thread =>
      if system.threads[thread]? = some .idle then
        some
          { system with
            queue := eventQueueClose system.queue
            threads := system.threads.map ThreadState.wake
            history := system.history ++ [.closed] }
      else none
  | .spurious thread =>
      match system.threads[thread]? with
      | some (.waiting call) =>
          some { system with threads := system.threads.set thread (.woken call) }
      | _ => none

end System

/-- The events of the pushes that returned true. -/
def accepted (history : List Response) : List Event :=
  history.filterMap fun
    | .pushed event true => some event
    | _ => none

/-- The events that pops returned. -/
def returned (history : List Response) : List Event :=
  history.filterMap fun
    | .popped _ result => result
    | _ => none

theorem accepted_append (front back : List Response) :
    accepted (front ++ back) = accepted front ++ accepted back :=
  List.filterMap_append

theorem returned_append (front back : List Response) :
    returned (front ++ back) = returned front ++ returned back :=
  List.filterMap_append

namespace System

variable {capacity : ℕ} {system next : System}

/-- What an action does to the queue and to the history. -/
inductive Effect (system next : System) : Prop
  /-- A thread goes to sleep or wakes up. -/
  | silent (queue : next.queue = system.queue) (history : next.history = system.history)
  /-- A call returns. -/
  | returns (call : Call) (response : Response)
      (ran : criticalSection call system.queue system.metrics =
        some (response, next.queue, next.metrics))
      (history : next.history = system.history ++ [response])
  /-- The queue is closed. -/
  | closes (queue : next.queue = eventQueueClose system.queue)
      (history : next.history = system.history ++ [.closed])

theorem attempt_effect {thread : ℕ} {call : Call} {wake : Option ℕ}
    (attempted : system.attempt thread call wake = some next) : Effect system next := by
  rw [attempt] at attempted
  cases ran : criticalSection call system.queue system.metrics with
  | none =>
      rw [ran] at attempted
      cases attempted
      exact Effect.silent rfl rfl
  | some outcome =>
      obtain ⟨response, queue, metrics⟩ := outcome
      rw [ran] at attempted
      obtain ⟨threads, -, rfl⟩ := Option.map_eq_some_iff.mp attempted
      exact Effect.returns call response ran rfl

/-- Every action has one of the three effects. -/
theorem step_effect {action : Action} (stepped : system.step action = some next) :
    Effect system next := by
  cases action with
  | call thread call wake =>
      rw [step] at stepped
      split at stepped
      · exact attempt_effect stepped
      · cases stepped
  | resume thread wake =>
      rw [step] at stepped
      split at stepped
      · exact attempt_effect stepped
      · cases stepped
  | close thread =>
      rw [step] at stepped
      split at stepped
      · cases stepped
        exact Effect.closes rfl rfl
      · cases stepped
  | spurious thread =>
      rw [step] at stepped
      split at stepped
      · cases stepped
        exact Effect.silent rfl rfl
      · cases stepped

end System

section Refinement

variable {capacity : ℕ}

/-- What a returning call has done to the channel. -/
inductive Answers (before after : Channel Event capacity) : Response → Prop
  | accepted (event : Event) (opened : before.closed = false)
      (items : after.items = before.items ++ [event]) (closed : after.closed = false) :
      Answers before after (.pushed event true)
  | refused (event : Event) (closed : before.closed = true) (same : after = before) :
      Answers before after (.pushed event false)
  | delivered (block : Bool) (event : Event) (items : before.items = event :: after.items)
      (closed : after.closed = before.closed) :
      Answers before after (.popped block (some event))
  | failed (block : Bool) (empty : before.items = [])
      (closed : block = true → before.closed = true) (same : after = before) :
      Answers before after (.popped block none)

/-- A call that returns answers from the channel in the ring. -/
theorem criticalSection_answers {queue queue' : Queue} {metrics metrics' : Metrics} {call : Call}
    {response : Response} {channel : Channel Event capacity}
    (represents : queue.Represents channel)
    (ran : criticalSection call queue metrics = some (response, queue', metrics')) :
    ∃ after : Channel Event capacity, queue'.Represents after ∧ Answers channel after response := by
  cases call with
  | push event =>
      obtain ⟨⟨accepted, shared⟩, pushed, answer⟩ := Option.map_eq_some_iff.mp ran
      cases answer
      obtain ⟨after, abstract, represents'⟩ :=
        Queue.exists_abstract (Queue.eventQueuePush_refines represents event metrics) pushed
      refine ⟨after, represents', ?_⟩
      rcases Channel.push_eq_some abstract with
        ⟨rfl, opened, items, still⟩ | ⟨rfl, closed, same⟩
      · exact Answers.accepted event opened items still
      · exact Answers.refused event closed same
  | pop block =>
      obtain ⟨⟨result, shared⟩, popped, answer⟩ := Option.map_eq_some_iff.mp ran
      cases answer
      obtain ⟨after, abstract, represents'⟩ :=
        Queue.exists_abstract (Queue.eventQueuePop_refines represents block metrics) popped
      refine ⟨after, represents', ?_⟩
      rcases Channel.pop_eq_some abstract with
        ⟨event, rfl, items, still⟩ | ⟨rfl, empty, closed, same⟩
      · exact Answers.delivered block event items still
      · exact Answers.failed block empty closed same

end Refinement

namespace System

variable {capacity : ℕ} {system next : System}

/-- The ring stores a channel whose items are the accepted events that no pop has returned. -/
structure Consistent (system : System) (channel : Channel Event capacity) : Prop where
  represents : system.queue.Represents channel
  fifo : accepted system.history = returned system.history ++ channel.items
  closing : ∀ before after, system.history = before ++ .closed :: after →
    channel.closed = true ∧ accepted after = []

theorem start_consistent (positive : 0 < capacity) (threads : ℕ) :
    (start capacity threads).Consistent (Channel.empty : Channel Event capacity) where
  represents := Queue.eventQueueCreate_represents positive
  fifo := rfl
  closing := by
    intro before after split
    cases before with
    | nil => cases split
    | cons response before => cases split

/-- The split of an extended history at a close. -/
private theorem closing_append {history before after : List Response} {response : Response}
    (split : history ++ [response] = before ++ .closed :: after) :
    (response = .closed ∧ after = []) ∨
      ∃ earlier, after = earlier ++ [response] ∧ history = before ++ .closed :: earlier := by
  cases after using List.reverseRecOn with
  | nil =>
      have last := List.append_inj_right' split rfl
      exact Or.inl ⟨(List.cons.inj last).1, rfl⟩
  | append_singleton earlier last ih =>
      rw [← List.cons_append, ← List.append_assoc] at split
      obtain ⟨same, rest⟩ := List.append_inj' split rfl
      exact Or.inr ⟨earlier, by rw [(List.cons.inj rest).1], same⟩

theorem Consistent.returns {channel after : Channel Event capacity} {response : Response}
    (consistent : system.Consistent channel) (represents : next.queue.Represents after)
    (answers : Answers channel after response)
    (history : next.history = system.history ++ [response]) : next.Consistent after where
  represents := represents
  fifo := by
    have fifo := consistent.fifo
    rw [history, accepted_append, returned_append, fifo]
    cases answers with
    | accepted event opened items closed => simp [accepted, returned, items]
    | refused event closed same => simp [accepted, returned, same]
    | delivered block event items closed => simp [accepted, returned, items]
    | failed block empty closed same => simp [accepted, returned, same]
  closing := by
    intro before later split
    rw [history] at split
    rcases closing_append split with ⟨rfl, -⟩ | ⟨earlier, rfl, inner⟩
    · cases answers
    · obtain ⟨closed, silent⟩ := consistent.closing before earlier inner
      rw [accepted_append, silent, List.nil_append]
      cases answers with
      | accepted event opened items still =>
          rw [opened] at closed
          cases closed
      | refused event isClosed same => exact ⟨by rw [same, closed], rfl⟩
      | delivered block event items still => exact ⟨still.trans closed, rfl⟩
      | failed block empty isClosed same => exact ⟨by rw [same, closed], rfl⟩

/-- Every action keeps the system consistent. -/
theorem step_consistent {channel : Channel Event capacity} {action : Action}
    (consistent : system.Consistent channel) (stepped : system.step action = some next) :
    ∃ after : Channel Event capacity, next.Consistent after := by
  cases step_effect stepped with
  | silent queue history =>
      refine ⟨channel, ?_, ?_, ?_⟩
      · rw [queue]
        exact consistent.represents
      · rw [history]
        exact consistent.fifo
      · rw [history]
        exact consistent.closing
  | returns call response ran history =>
      obtain ⟨after, represents, answers⟩ := criticalSection_answers consistent.represents ran
      exact ⟨after, consistent.returns represents answers history⟩
  | closes queue history =>
      refine ⟨channel.close, ?_, ?_, ?_⟩
      · rw [queue]
        exact Queue.eventQueueClose_represents consistent.represents
      · have fifo := consistent.fifo
        rw [history, accepted_append, returned_append, fifo]
        simp [accepted, returned, Channel.close]
      · intro before after split
        rw [history] at split
        refine ⟨rfl, ?_⟩
        rcases closing_append split with ⟨-, rfl⟩ | ⟨earlier, rfl, inner⟩
        · rfl
        · rw [accepted_append, (consistent.closing before earlier inner).2]
          rfl

/-- Some choice of the sleeper makes a signal possible, and it leaves idle threads idle. -/
theorem exists_announce (response : Response) (threads : List ThreadState) {thread : ℕ}
    (idle : threads[thread]? = some .idle) :
    ∃ wake threads', response.announce wake threads = some threads' ∧
      threads'[thread]? = some .idle := by
  simp only [Response.announce]
  cases response.signalled with
  | none => exact ⟨none, threads, rfl, idle⟩
  | some condition =>
      by_cases waiting : threads.any (ThreadState.waitsOn condition) = true
      · obtain ⟨state, member, waits⟩ := List.any_eq_true.mp waiting
        obtain ⟨sleeper, sleeping⟩ := List.mem_iff_getElem?.mp member
        have different : sleeper ≠ thread := by
          rintro rfl
          rw [idle] at sleeping
          cases sleeping
          cases waits
        refine ⟨some sleeper, threads.set sleeper state.wake, ?_, ?_⟩
        · simp only [signal, sleeping, waits, if_true]
        · rw [List.getElem?_set_ne different, idle]
      · exact ⟨none, threads, if_neg waiting, idle⟩

/-- A pop by an idle thread takes the first event of a closed ring. -/
theorem exists_pop {channel : Channel Event capacity} (consistent : system.Consistent channel)
    (closed : channel.closed = true) {thread : ℕ} (idle : system.threads[thread]? = some .idle)
    (block : Bool) {event : Event} {events : List Event} (items : channel.items = event :: events) :
    ∃ (wake : Option ℕ) (next : System) (after : Channel Event capacity),
      system.step (.call thread (.pop block) wake) = some next ∧ next.Consistent after ∧
        after.closed = true ∧ after.items = events ∧ next.threads[thread]? = some .idle ∧
        next.history = system.history ++ [.popped block (some event)] := by
  obtain ⟨after, popped, rest, still⟩ := Channel.pop_of_cons items block
  obtain ⟨queue, metrics, concrete, represents⟩ := Queue.exists_concrete
    (Queue.eventQueuePop_refines consistent.represents block system.metrics) popped
  have bound : thread < system.threads.length := (List.getElem?_eq_some_iff.mp idle).1
  obtain ⟨wake, threads, announced, still_idle⟩ :=
    exists_announce (.popped block (some event)) (system.threads.set thread .idle)
      (List.getElem?_set_self bound)
  have ran : criticalSection (.pop block) system.queue system.metrics =
      some (.popped block (some event), queue, metrics) := by
    rw [criticalSection, concrete, Option.map_some]
  have answers : Answers channel after (.popped block (some event)) :=
    Answers.delivered block event (by rw [items, rest]) still
  refine ⟨wake, ⟨queue, metrics, threads, _⟩, after, ?_,
    consistent.returns represents answers rfl, still.trans closed, rest, still_idle, rfl⟩
  rw [step, if_pos idle, attempt, ran]
  simp only [announced, Option.map_some]

/-- Pops by an idle thread empty a closed ring in order. -/
theorem exists_drain {channel : Channel Event capacity} (consistent : system.Consistent channel)
    (closed : channel.closed = true) {thread : ℕ} (idle : system.threads[thread]? = some .idle)
    (block : Bool) :
    ∃ (wakes : List (Option ℕ)) (final : System) (after : Channel Event capacity),
      Execution.run step system (wakes.map fun wake => .call thread (.pop block) wake) =
          some final ∧
        final.Consistent after ∧ after.items = [] ∧
        final.history =
          system.history ++ channel.items.map fun event => .popped block (some event) := by
  generalize contents : channel.items = items
  induction items generalizing system channel with
  | nil => exact ⟨[], system, channel, rfl, consistent, contents, by simp⟩
  | cons event events ih =>
      obtain ⟨wake, next, after, stepped, consistent', closed', items, idle', history⟩ :=
        exists_pop consistent closed idle block contents
      obtain ⟨wakes, final, last, execution, consistent'', emptied, history'⟩ :=
        ih consistent' closed' idle' items
      refine ⟨wake :: wakes, final, last, ?_, consistent'', emptied, ?_⟩
      · rw [List.map_cons, Execution.run_cons, stepped]
        exact execution
      · rw [history', history, List.map_cons, List.append_assoc, List.singleton_append]

/-- What holds of a queue of a given capacity whatever its threads do. -/
structure Correct (capacity : ℕ) (system : System) : Prop where
  head_lt : system.queue.head < capacity
  tail_lt : system.queue.tail < capacity
  size_le : system.queue.size ≤ capacity
  tail_eq : system.queue.tail = (system.queue.head + system.queue.size) % capacity
  /-- The accepted events are the returned ones and then those in the ring. -/
  fifo : accepted system.history = returned system.history ++ system.queue.contents
  /-- No push is accepted after a close. -/
  closing : ∀ before after, system.history = before ++ .closed :: after →
    system.queue.closed = true ∧ accepted after = []
  /-- A pop fails on an empty ring only, and if it may block on a closed one only. -/
  failing : ∀ action next block, system.step action = some next →
    next.history = system.history ++ [.popped block none] →
      system.queue.size = 0 ∧ (block = true → system.queue.closed = true)
  /-- Once the queue is closed, any thread can pop the events in the ring in order. -/
  draining : system.queue.closed = true →
    ∀ thread : ℕ, system.threads[thread]? = some .idle → ∀ block : Bool,
      ∃ (wakes : List (Option ℕ)) (final : System),
        Execution.run step system (wakes.map fun wake => .call thread (.pop block) wake) =
            some final ∧
          final.queue.size = 0 ∧
          final.history =
            system.history ++ system.queue.contents.map fun event => .popped block (some event)

theorem Consistent.correct {channel : Channel Event capacity}
    (consistent : system.Consistent channel) : Correct capacity system where
  head_lt := consistent.represents.head_lt
  tail_lt := consistent.represents.tail_lt
  size_le := consistent.represents.size_le
  tail_eq := consistent.represents.tail_eq
  fifo := by
    rw [consistent.represents.contents_eq]
    exact consistent.fifo
  closing := by
    intro before after split
    rw [consistent.represents.closed_eq]
    exact consistent.closing before after split
  failing := by
    intro action next block stepped failed
    rw [consistent.represents.size_eq, consistent.represents.closed_eq]
    cases step_effect stepped with
    | silent queue history =>
        rw [history] at failed
        exact absurd (List.self_eq_append_right.mp failed) (List.cons_ne_nil _ _)
    | returns call response ran history =>
        obtain ⟨after, -, answers⟩ := criticalSection_answers consistent.represents ran
        rw [history] at failed
        obtain ⟨rfl⟩ := List.append_cancel_left failed
        cases answers with
        | failed block empty closed same => exact ⟨by rw [empty, List.length_nil], closed⟩
    | closes queue history =>
        rw [history] at failed
        cases List.append_cancel_left failed
  draining := by
    intro closed thread idle block
    rw [consistent.represents.closed_eq] at closed
    obtain ⟨wakes, final, after, execution, consistent', emptied, history⟩ :=
      exists_drain consistent closed idle block
    refine ⟨wakes, final, execution, ?_, ?_⟩
    · rw [consistent'.represents.size_eq, emptied, List.length_nil]
    · rw [history, consistent.represents.contents_eq]

/-- In every state that any number of threads reach on a queue of positive capacity the indices are
in range, the queue is first-in first-out, and closing it neither accepts nor loses an event. -/
theorem eventQueue_correct (positive : 0 < capacity) (threads : ℕ) (actions : List Action)
    (execution : Execution.run step (start capacity threads) actions = some system) :
    Correct capacity system := by
  have preserved : ∀ before action after,
      (∃ channel : Channel Event capacity, Consistent before channel) →
        step before action = some after →
          ∃ channel : Channel Event capacity, Consistent after channel := by
    rintro before action after ⟨channel, consistent⟩ stepped
    exact step_consistent consistent stepped
  obtain ⟨channel, consistent⟩ := Execution.run_invariant preserved
    ⟨Channel.empty, start_consistent positive threads⟩ execution
  exact consistent.correct

/-- On a ring of one place a second push waits, is woken by a pop and fails after a close. -/
theorem eventQueue_correct_waiting_push :
    ∃ system, Execution.run step (start 1 2)
        [.call 0 (.push Event.zero) none, .call 1 (.push Event.zero) none,
          .call 0 (.pop true) (some 1), .close 0, .resume 1 none] = some system ∧
      system.history = [.pushed Event.zero true, .popped true (some Event.zero), .closed,
        .pushed Event.zero false] ∧
      Correct 1 system := by
  have history : (Execution.run step (start 1 2)
      [.call 0 (.push Event.zero) none, .call 1 (.push Event.zero) none,
        .call 0 (.pop true) (some 1), .close 0, .resume 1 none]).map System.history =
      some [.pushed Event.zero true, .popped true (some Event.zero), .closed,
        .pushed Event.zero false] := by
    decide
  obtain ⟨system, execution, history⟩ := Option.map_eq_some_iff.mp history
  exact ⟨system, execution, history, eventQueue_correct Nat.zero_lt_one 2 _ execution⟩

end System

end YureiGeyser
