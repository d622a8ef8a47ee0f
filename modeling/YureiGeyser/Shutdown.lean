import YureiGeyser.EventQueue
import YureiGeyser.WriterRuns

/-!
# Shutdown

The end of `main`: the producer is joined, then `db_writer_stop` clears `running` and closes the
queue, while the writer is anywhere in its loop.  The loop of `db_writer_main` is cut where another
thread can interfere: at the test of `running` and at the pop.  The counters of the queue and those
of the writer are different fields, so the model keeps them apart.
-/

namespace YureiGeyser

/-- Where the writer thread is. -/
inductive WriterPc
  /-- At the test of `running`. -/
  | test
  /-- Behind the test, at `event_queue_pop`. -/
  | pop
  /-- Behind the pop, with its outcome. -/
  | handle (popped : Option Event)
  /-- Out of the loop, at the final flush. -/
  | finish
  | returned
  deriving DecidableEq

/-- How far `main` has got. -/
inductive MainPhase
  | producing
  /-- `geyser_client_stop` has returned. -/
  | joined
  /-- `running` is false. -/
  | stopping
  /-- The queue is closed. -/
  | closed
  deriving DecidableEq

/-- The queue, the writer and `main`, with the events whose push returned true. -/
structure Shutdown where
  queue : Queue
  metrics : Metrics
  writer : DbWriter
  pc : WriterPc
  running : Bool
  phase : MainPhase
  accepted : List Event

/-- A step of the producer, of `main` or of the writer. -/
inductive ShutdownAction
  | push (event : Event)
  | join
  | stop
  | close
  | test
  | pop
  | handle (env : Iteration)
  | finish (env : FlushAllEnv)

namespace Shutdown

/-- A fresh queue and the writer at the head of its loop. -/
def start (capacity : ℕ) (lastFlush : Timeval) : Shutdown where
  queue := eventQueueCreate capacity
  metrics := Metrics.init
  writer := dbWriterStart lastFlush Metrics.init
  pc := .test
  running := true
  phase := .producing
  accepted := []

/-- One step.  The client only pushes events that have a type, and a push without a result waits. -/
def step (system : Shutdown) : ShutdownAction → Option Shutdown
  | .push event =>
      if system.phase = .producing ∧ event.type ≠ .none then
        (eventQueuePush event system.queue system.metrics).map
          fun (accepted, queue, metrics) =>
            { system with
              queue, metrics
              accepted := if accepted then system.accepted ++ [event] else system.accepted }
      else none
  | .join =>
      if system.phase = .producing then some { system with phase := .joined } else none
  | .stop =>
      if system.phase = .joined then some { system with phase := .stopping, running := false }
      else none
  | .close =>
      if system.phase = .stopping then
        some { system with phase := .closed, queue := eventQueueClose system.queue }
      else none
  | .test =>
      if system.pc = .test then
        some { system with pc := if system.running then .pop else .finish }
      else none
  | .pop =>
      if system.pc = .pop then
        (eventQueuePop false system.queue system.metrics).map fun (result, queue, metrics) =>
          { system with queue, metrics, pc := .handle result }
      else none
  | .handle env =>
      match system.pc with
      | .handle popped =>
          (iteration { env with popped } system.writer).toOption.map fun writer =>
            { system with writer, pc := .test }
      | _ => none
  | .finish env =>
      if system.pc = .finish then
        (flushAllBatches env system.writer).toOption.map fun writer =>
          { system with writer, pc := .returned }
      else none

/-- Every accepted event is stored once, in order within its type, and nothing is left. -/
structure Delivered (system : Shutdown) : Prop where
  trades : committedTrades system.writer.trace = system.accepted.filterMap Event.trade?
  swaps : committedSwaps system.writer.trace = system.accepted.filterMap Event.swap?
  queue : system.queue.size = 0
  pumpfunBatch : system.writer.pumpfunBatch = []
  raydiumBatch : system.writer.raydiumBatch = []

end Shutdown

/-- Every database operation of a step succeeds. -/
def ShutdownAction.Healthy : ShutdownAction → Prop
  | .handle env => env.Admits FlushEnv.Healthy
  | .finish env => env.pumpfun.Healthy ∧ env.raydium.Healthy
  | _ => True

/-- The event that the writer has popped but not yet stored. -/
def WriterPc.inFlight : WriterPc → List Event
  | .handle popped => popped.toList
  | _ => []

namespace Shutdown

variable {capacity : ℕ} {system next final : Shutdown}

/-- What each action finds and does. -/
inductive Stepped (system : Shutdown) : ShutdownAction → Shutdown → Prop
  | push (event : Event) (accepted : Bool) (queue : Queue) (metrics : Metrics)
      (phase : system.phase = .producing) (typed : event.type ≠ .none)
      (ran : eventQueuePush event system.queue system.metrics = some (accepted, queue, metrics)) :
      Stepped system (.push event)
        { system with
          queue, metrics
          accepted := if accepted then system.accepted ++ [event] else system.accepted }
  | join (phase : system.phase = .producing) : Stepped system .join { system with phase := .joined }
  | stop (phase : system.phase = .joined) :
      Stepped system .stop { system with phase := .stopping, running := false }
  | close (phase : system.phase = .stopping) :
      Stepped system .close { system with phase := .closed, queue := eventQueueClose system.queue }
  | test (pc : system.pc = .test) :
      Stepped system .test { system with pc := if system.running then .pop else .finish }
  | pop (result : Option Event) (queue : Queue) (metrics : Metrics) (pc : system.pc = .pop)
      (ran : eventQueuePop false system.queue system.metrics = some (result, queue, metrics)) :
      Stepped system .pop { system with queue, metrics, pc := .handle result }
  | handle (env : Iteration) (popped : Option Event) (writer : DbWriter)
      (pc : system.pc = .handle popped)
      (iterated : iteration { env with popped } system.writer = .ok writer) :
      Stepped system (.handle env) { system with writer, pc := .test }
  | finish (env : FlushAllEnv) (writer : DbWriter) (pc : system.pc = .finish)
      (flushed : flushAllBatches env system.writer = .ok writer) :
      Stepped system (.finish env) { system with writer, pc := .returned }

theorem stepped_of_step {action : ShutdownAction} (moves : system.step action = some next) :
    system.Stepped action next := by
  cases action with
  | push event =>
      obtain ⟨⟨phase, typed⟩, pushed⟩ := Option.ite_none_right_eq_some.mp moves
      obtain ⟨⟨accepted, queue, metrics⟩, ran, rfl⟩ := Option.map_eq_some_iff.mp pushed
      exact .push event accepted queue metrics phase typed ran
  | join =>
      obtain ⟨phase, ⟨⟩⟩ := Option.ite_none_right_eq_some.mp moves
      exact .join phase
  | stop =>
      obtain ⟨phase, ⟨⟩⟩ := Option.ite_none_right_eq_some.mp moves
      exact .stop phase
  | close =>
      obtain ⟨phase, ⟨⟩⟩ := Option.ite_none_right_eq_some.mp moves
      exact .close phase
  | test =>
      obtain ⟨pc, ⟨⟩⟩ := Option.ite_none_right_eq_some.mp moves
      exact .test pc
  | pop =>
      obtain ⟨pc, popped⟩ := Option.ite_none_right_eq_some.mp moves
      obtain ⟨⟨result, queue, metrics⟩, ran, rfl⟩ := Option.map_eq_some_iff.mp popped
      exact .pop result queue metrics pc ran
  | handle env =>
      rw [step] at moves
      split at moves
      · next popped pc =>
          obtain ⟨writer, iterated, rfl⟩ := Option.map_eq_some_iff.mp moves
          exact .handle env popped writer pc (toOption_eq_some.mp iterated)
      · cases moves
  | finish env =>
      obtain ⟨pc, finished⟩ := Option.ite_none_right_eq_some.mp moves
      obtain ⟨writer, flushed, rfl⟩ := Option.map_eq_some_iff.mp finished
      exact .finish env writer pc (toOption_eq_some.mp flushed)

/-- The accepted events are those that the writer has handled, the one in its hands and those in the
queue; the writer accounts for the first. -/
structure Sound (system : Shutdown) (channel : Channel Event capacity) : Prop where
  represents : system.queue.Represents channel
  accepted : system.accepted =
    poppedEvents system.writer.trace ++ system.pc.inFlight ++ channel.items
  typed : ∀ event ∈ system.accepted, event.type ≠ .none
  accounted : Accounted system.writer
  returned : system.pc = .returned →
    system.writer.pumpfunBatch = [] ∧ system.writer.raydiumBatch = []

theorem start_sound (positive : 0 < capacity) (lastFlush : Timeval) :
    (start capacity lastFlush).Sound (Channel.empty : Channel Event capacity) where
  represents := Queue.eventQueueCreate_represents positive
  accepted := rfl
  typed := by
    intro event member
    cases member
  accounted := dbWriterStart_accounted lastFlush
  returned := by
    intro impossible
    cases impossible

theorem Sound.push {channel : Channel Event capacity} (sound : system.Sound channel)
    {event : Event} {accepted : Bool} {queue : Queue} {metrics : Metrics}
    (typed : event.type ≠ .none)
    (ran : eventQueuePush event system.queue system.metrics = some (accepted, queue, metrics)) :
    ∃ after : Channel Event capacity, Sound
      { system with
        queue, metrics
        accepted := if accepted then system.accepted ++ [event] else system.accepted } after := by
  obtain ⟨after, abstract, represents⟩ := Queue.exists_abstract
    (Queue.eventQueuePush_refines sound.represents event system.metrics) ran
  rcases Channel.push_eq_some abstract with ⟨rfl, -, items, -⟩ | ⟨rfl, -, rfl⟩
  · refine ⟨after, represents, ?_, ?_, sound.accounted, sound.returned⟩
    · change system.accepted ++ [event] = _
      rw [sound.accepted, items, List.append_assoc]
    · intro other member
      rcases List.mem_append.mp member with member | member
      · exact sound.typed other member
      · rw [List.mem_singleton.mp member]
        exact typed
  · exact ⟨after, represents, sound.accepted, sound.typed, sound.accounted, sound.returned⟩

theorem Sound.pop {channel : Channel Event capacity} (sound : system.Sound channel)
    {result : Option Event} {queue : Queue} {metrics : Metrics} (pc : system.pc = .pop)
    (ran : eventQueuePop false system.queue system.metrics = some (result, queue, metrics)) :
    ∃ after : Channel Event capacity,
      Sound { system with queue, metrics, pc := .handle result } after := by
  obtain ⟨after, abstract, represents⟩ := Queue.exists_abstract
    (Queue.eventQueuePop_refines sound.represents false system.metrics) ran
  refine ⟨after, represents, ?_, sound.typed, sound.accounted, nofun⟩
  have accepted := sound.accepted
  rw [pc] at accepted
  rcases Channel.pop_eq_some abstract with ⟨event, rfl, items, -⟩ | ⟨rfl, -, -, rfl⟩
  · change system.accepted = poppedEvents system.writer.trace ++ [event] ++ after.items
    rw [accepted, items, List.append_assoc, List.append_assoc]
    rfl
  · exact accepted

theorem Sound.handle {channel : Channel Event capacity} (sound : system.Sound channel)
    {env : Iteration} (healthy : env.Admits FlushEnv.Healthy) {popped : Option Event}
    {writer : DbWriter} (pc : system.pc = .handle popped)
    (iterated : iteration { env with popped } system.writer = .ok writer) :
    Sound { system with writer, pc := .test } channel := by
  have accepted := sound.accepted
  rw [pc] at accepted
  refine ⟨sound.represents, ?_, sound.typed, ?_, nofun⟩
  · rw [accepted, iteration_popped iterated]
    simp [WriterPc.inFlight]
  · refine iteration_preserves accounted_preserved ?_ ?_ sound.accounted iterated
    · exact ⟨healthy.sizeFlush.alloc, healthy.pumpfun.alloc, healthy.raydium.alloc⟩
    · rintro event rfl
      apply sound.typed
      rw [accepted]
      simp [WriterPc.inFlight]

theorem Sound.finish {channel : Channel Event capacity} (sound : system.Sound channel)
    {env : FlushAllEnv} (pumpfun : env.pumpfun.Healthy) (raydium : env.raydium.Healthy)
    {writer : DbWriter} (pc : system.pc = .finish)
    (flushed : flushAllBatches env system.writer = .ok writer) :
    Sound { system with writer, pc := .returned } channel := by
  have accepted := sound.accepted
  rw [pc] at accepted
  refine ⟨sound.represents, ?_, sound.typed, ?_, ?_⟩
  · rw [accepted, flushAllBatches_preserves (popped_preserved _) trivial trivial rfl flushed]
    rfl
  · exact flushAllBatches_preserves accounted_flushes pumpfun.alloc raydium.alloc sound.accounted
      flushed
  · intro _
    exact flushAllBatches_healthy pumpfun raydium flushed

/-- Every step with healthy answers keeps the system sound. -/
theorem step_sound {channel : Channel Event capacity} {action : ShutdownAction}
    (healthy : action.Healthy) (sound : system.Sound channel)
    (moves : system.step action = some next) :
    ∃ after : Channel Event capacity, next.Sound after := by
  cases stepped_of_step moves with
  | push event accepted queue metrics phase typed ran => exact sound.push typed ran
  | pop result queue metrics pc ran => exact sound.pop pc ran
  | handle env popped writer pc iterated => exact ⟨channel, sound.handle healthy pc iterated⟩
  | finish env writer pc flushed =>
      exact ⟨channel, sound.finish healthy.1 healthy.2 pc flushed⟩
  | join phase =>
      exact ⟨channel, sound.represents, sound.accepted, sound.typed, sound.accounted,
        sound.returned⟩
  | stop phase =>
      exact ⟨channel, sound.represents, sound.accepted, sound.typed, sound.accounted,
        sound.returned⟩
  | close phase =>
      exact ⟨channel.close, Queue.eventQueueClose_represents sound.represents, sound.accepted,
        sound.typed, sound.accounted, sound.returned⟩
  | test pc =>
      have accepted := sound.accepted
      rw [pc] at accepted
      refine ⟨channel, sound.represents, ?_, sound.typed, sound.accounted, ?_⟩
      · rw [accepted]
        cases system.running <;> rfl
      · cases system.running <;> exact nofun

/-- Every state of a run with healthy answers is sound. -/
theorem run_sound (positive : 0 < capacity) {lastFlush : Timeval} {actions : List ShutdownAction}
    (healthy : ∀ action ∈ actions, action.Healthy)
    (execution : Execution.run step (start capacity lastFlush) actions = some system) :
    ∃ channel : Channel Event capacity, system.Sound channel := by
  have preserved : ∀ before action after, ShutdownAction.Healthy action →
      (∃ channel : Channel Event capacity, Sound before channel) →
        step before action = some after →
          ∃ channel : Channel Event capacity, Sound after channel := by
    rintro before action after healthy ⟨channel, sound⟩ stepped
    exact step_sound healthy sound stepped
  exact Execution.run_invariant_of_forall preserved healthy
    ⟨Channel.empty, start_sound positive lastFlush⟩ execution

/-- When the writer has returned, all is delivered exactly when the queue is empty. -/
theorem Sound.delivered_iff_size {channel : Channel Event capacity} (sound : system.Sound channel)
    (returned : system.pc = .returned) : Delivered system ↔ system.queue.size = 0 := by
  constructor
  · intro delivered
    exact delivered.queue
  · intro empty
    obtain ⟨pumpfun, raydium⟩ := sound.returned returned
    have nothing : channel.items = [] := by
      rw [← List.length_eq_zero_iff, ← sound.represents.size_eq]
      exact empty
    have accepted := sound.accepted
    rw [returned, nothing, List.append_nil] at accepted
    have all : system.accepted = poppedEvents system.writer.trace :=
      accepted.trans (List.append_nil _)
    have trades := sound.accounted.trades
    have swaps := sound.accounted.swaps
    rw [pumpfun, List.append_nil] at trades
    rw [raydium, List.append_nil] at swaps
    exact
      { trades := by rw [all, trades]
        swaps := by rw [all, swaps]
        queue := empty
        pumpfunBatch := pumpfun
        raydiumBatch := raydium }

/-- The stop has arrived: there are no pushes any more, and the writer leaves at its next test. -/
structure Stopped (system : Shutdown) : Prop where
  running : system.running = false
  phase : system.phase = .stopping ∨ system.phase = .closed

/-- The number of events that the writer will leave in the queue once it is stopped. -/
def left (system : Shutdown) : ℕ :=
  system.queue.size - if system.pc = .pop then 1 else 0

/-- After the stop no step changes the number of events that are left. -/
theorem step_left {action : ShutdownAction} (stopped : system.Stopped)
    (moves : system.step action = some next) : next.Stopped ∧ next.left = system.left := by
  obtain ⟨running, phase⟩ := stopped
  cases stepped_of_step moves with
  | push event accepted queue metrics producing typed ran => simp [producing] at phase
  | join producing => simp [producing] at phase
  | stop joined => simp [joined] at phase
  | close stopping => exact ⟨⟨running, Or.inr rfl⟩, rfl⟩
  | test pc =>
      refine ⟨⟨running, phase⟩, ?_⟩
      simp only [left, running, pc]
      rfl
  | pop result queue metrics pc ran =>
      refine ⟨⟨running, phase⟩, ?_⟩
      simp only [left, pc, eventQueuePop_size ran]
      rfl
  | handle env popped writer pc iterated =>
      refine ⟨⟨running, phase⟩, ?_⟩
      simp only [left, pc]
      rfl
  | finish env writer pc flushed =>
      refine ⟨⟨running, phase⟩, ?_⟩
      simp only [left, pc]
      rfl

theorem run_left {actions : List ShutdownAction} (stopped : system.Stopped)
    (execution : Execution.run step system actions = some final) : final.left = system.left := by
  have preserved : ∀ before action after, (Stopped before ∧ before.left = system.left) →
      step before action = some after → Stopped after ∧ after.left = system.left := by
    rintro before action after ⟨stopped, same⟩ stepped
    obtain ⟨stopped', same'⟩ := step_left stopped stepped
    exact ⟨stopped', same'.trans same⟩
  exact (Execution.run_invariant preserved ⟨stopped, rfl⟩ execution).2

/-- The stop itself leaves the queue and the writer alone. -/
theorem step_stop (moves : system.step .stop = some next) :
    next.Stopped ∧ next.left = system.left := by
  cases stepped_of_step moves with
  | stop joined => exact ⟨⟨rfl, Or.inl rfl⟩, rfl⟩

/-- The writer is in its loop, and nothing has stopped it. -/
structure Looping (system : Shutdown) : Prop where
  running : system.running = true
  finish : system.pc ≠ .finish
  returned : system.pc ≠ .returned

theorem step_looping {action : ShutdownAction} (other : action ≠ .stop)
    (looping : system.Looping) (moves : system.step action = some next) : next.Looping := by
  obtain ⟨running, finish, returned⟩ := looping
  cases stepped_of_step moves with
  | stop joined => exact absurd rfl other
  | push event accepted queue metrics phase typed ran => exact ⟨running, finish, returned⟩
  | join phase => exact ⟨running, finish, returned⟩
  | close phase => exact ⟨running, finish, returned⟩
  | test pc =>
      simp only [running]
      exact ⟨rfl, nofun, nofun⟩
  | pop result queue metrics pc ran => exact ⟨running, nofun, nofun⟩
  | handle env popped writer pc iterated => exact ⟨running, nofun, nofun⟩
  | finish env writer pc flushed => exact absurd pc finish

/-- A writer that has returned has been stopped. -/
theorem exists_stop {lastFlush : Timeval} {actions : List ShutdownAction}
    (execution : Execution.run step (start capacity lastFlush) actions = some system)
    (returned : system.pc = .returned) :
    ∃ before after, actions = before ++ .stop :: after := by
  by_contra unstopped
  have others : ∀ action ∈ actions, action ≠ .stop := by
    rintro action member rfl
    exact unstopped (List.append_of_mem member)
  have looping : system.Looping := Execution.run_invariant_of_forall
    (fun _ _ _ other looping stepped => step_looping other looping stepped) others
    ⟨rfl, WriterPc.noConfusion, WriterPc.noConfusion⟩ execution
  exact looping.returned returned

/-- When the writer returns, every accepted event has been stored exactly if, when `running` was
cleared, the queue held at most the one event that the writer was about to pop. -/
theorem delivered_iff (positive : 0 < capacity) {lastFlush : Timeval}
    {actions : List ShutdownAction} (healthy : ∀ action ∈ actions, action.Healthy)
    (execution : Execution.run step (start capacity lastFlush) actions = some final)
    (returned : final.pc = .returned) :
    Delivered final ↔
      ∀ before after system, actions = before ++ .stop :: after →
        Execution.run step (start capacity lastFlush) before = some system →
          system.queue.size ≤ if system.pc = .pop then 1 else 0 := by
  obtain ⟨channel, sound⟩ := run_sound positive healthy execution
  have final_left : final.left = final.queue.size := by
    rw [left, returned]
    rfl
  have left_eq : ∀ before after system, actions = before ++ .stop :: after →
      Execution.run step (start capacity lastFlush) before = some system →
        system.left = final.queue.size := by
    rintro before after system rfl reached
    obtain ⟨middle, front, back⟩ := Execution.run_append_eq_some.mp execution
    rw [reached] at front
    cases front
    obtain ⟨next, stepped, rest⟩ := Execution.run_cons_eq_some.mp back
    obtain ⟨stopped, same⟩ := step_stop stepped
    rw [← final_left, run_left stopped rest, same]
  rw [sound.delivered_iff_size returned]
  constructor
  · intro empty before after system split reached
    have nothing := left_eq before after system split reached
    rw [empty, left, Nat.sub_eq_zero_iff_le] at nothing
    exact nothing
  · intro small
    obtain ⟨before, after, split⟩ := exists_stop execution returned
    obtain ⟨system, reached, -⟩ := Execution.run_append_eq_some.mp (split ▸ execution)
    rw [← left_eq before after system split reached, left, Nat.sub_eq_zero_iff_le]
    exact small before after system split reached

/-- An environment without failures. -/
def healthyFlush : FlushEnv :=
  { refusedFlush with connectOk := true, statusOk := true }

/-- A final flush without failures. -/
def healthyFlushAll : FlushAllEnv :=
  ⟨healthyFlush, healthyFlush, ⟨0, 0⟩⟩

theorem healthyFlush_healthy : healthyFlush.Healthy :=
  ⟨rfl, rfl, rfl, fun _ _ => rfl, rfl⟩

/-- The event of a pushed trade. -/
def pushedEvent : Event :=
  { Event.zero with
    data := .pumpfunTrade ⟨Pubkey.zero, Pubkey.zero, Pubkey.zero, 0, 0, false, 0, 0, 0, 0, 0, 0, 0, 0,
      0, 0⟩ }

/-- The stop arrives when the writer is about to pop the only event. -/
def lateStop : List ShutdownAction :=
  [.push pushedEvent, .join, .test, .stop, .pop, .close,
    .handle ⟨none, healthyFlush, ⟨0, 0⟩, healthyFlushAll⟩, .test, .finish healthyFlushAll]

/-- The stop arrives when the writer is at its test. -/
def earlyStop : List ShutdownAction :=
  [.push pushedEvent, .join, .stop, .close, .test, .finish healthyFlushAll]

theorem delivered_iff_lateStop :
    ∃ final, Execution.run step (start 1 ⟨0, 0⟩) lateStop = some final ∧ final.pc = .returned ∧
      (Delivered final ↔
        ∀ before after system, lateStop = before ++ .stop :: after →
          Execution.run step (start 1 ⟨0, 0⟩) before = some system →
            system.queue.size ≤ if system.pc = .pop then 1 else 0) := by
  have pc : (Execution.run step (start 1 ⟨0, 0⟩) lateStop).map Shutdown.pc = some .returned := by
    decide +kernel
  obtain ⟨final, execution, returned⟩ := Option.map_eq_some_iff.mp pc
  have healthy : ∀ action ∈ lateStop, action.Healthy := by
    have flush := healthyFlush_healthy
    simp only [lateStop, List.forall_mem_cons, ShutdownAction.Healthy, healthyFlushAll, true_and]
    exact ⟨⟨flush, flush, flush⟩, ⟨flush, flush⟩, by simp⟩
  exact ⟨final, execution, returned,
    delivered_iff Nat.zero_lt_one healthy execution returned⟩

/-- An event that is in the queue when the stop arrives is never stored. -/
theorem not_delivered_earlyStop :
    ∃ final, Execution.run step (start 1 ⟨0, 0⟩) earlyStop = some final ∧ final.pc = .returned ∧
      ¬ Delivered final := by
  have outcome : (Execution.run step (start 1 ⟨0, 0⟩) earlyStop).map
      (fun final => (final.pc, final.queue.size)) = some (.returned, 1) := by
    decide +kernel
  obtain ⟨final, execution, outcome⟩ := Option.map_eq_some_iff.mp outcome
  rw [Prod.mk.injEq] at outcome
  refine ⟨final, execution, outcome.1, ?_⟩
  intro delivered
  rw [delivered.queue] at outcome
  cases outcome.2

end Shutdown

end YureiGeyser
