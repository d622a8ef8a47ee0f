import YureiGeyser.Process

/-!
# The objects of the process

What `main` has allocated when it is at each of its points.  The queue outlives both threads, and it
is not closed before the client is gone.
-/

namespace YureiGeyser

variable {Buffer : Type}

/-! ## What the steps of the threads leave alone -/

/-- Only `geyser_client_stop` clears `running`. -/
theorem Client.running_of_step {detector : ProtocolDetector}
    {unpack : Buffer → Option SubscribeUpdate} {client next : Client Buffer}
    {action : ClientAction Buffer} (other : action.stops = false)
    (taken : client.step detector unpack action = some next) : next.running = client.running := by
  have kept : ∀ (call : GrpcCall Buffer) (tag : Tag) (success : Bool),
      (client.afterWait call tag success).running = client.running := by
    intro call tag success
    have resumed := resumes_afterWait client call tag success
    generalize client.afterWait call tag success = after at resumed ⊢
    cases resumed <;> rfl
  cases steps_of_step taken with
  | stop => cases other
  | cached here found => exact kept _ _ _
  | found buffer here permitted => exact kept _ _ _
  | _ => rfl

theorem ClientThread.running_of_step {unpack : Buffer → Option SubscribeUpdate}
    {thread after : ClientThread Buffer} {action : ClientAction Buffer}
    (other : action.stops = false) (taken : thread.step unpack action = some after) :
    after.client.running = thread.client.running := by
  obtain ⟨-, stepped⟩ := Option.ite_none_right_eq_some.mp taken
  obtain ⟨client, went, rfl⟩ := Option.map_eq_some_iff.mp stepped
  exact Client.running_of_step other went

namespace Queue

variable {queue after : Queue} {metrics metrics' : Metrics}

theorem closed_of_push {event : Event} {ok : Bool}
    (ran : eventQueuePush event queue metrics = some (ok, after, metrics')) :
    after.closed = queue.closed := by
  rw [eventQueuePush] at ran
  split at ran
  · cases ran
  · split at ran <;> cases ran <;> rfl

theorem closed_of_pop {block : Bool} {result : Option Event}
    (ran : eventQueuePop block queue metrics = some (result, after, metrics')) :
    after.closed = queue.closed := by
  rw [eventQueuePop] at ran
  split at ran
  · split at ran <;> cases ran
    rfl
  · split at ran <;> cases ran <;> rfl

end Queue

namespace WriterThread

/-- The thread is in its loop, and nothing has stopped it. -/
structure Looping (thread : WriterThread) : Prop where
  running : thread.running = true
  finish : thread.pc ≠ .finish
  returned : thread.pc ≠ .returned

theorem running_of_step {thread after : WriterThread} {action : WriterAction}
    (taken : thread.step action = some after) : after.running = thread.running := by
  cases action with
  | test =>
      obtain ⟨pc, ⟨⟩⟩ := Option.ite_none_right_eq_some.mp taken
      rfl
  | handle env =>
      rw [step] at taken
      split at taken
      · obtain ⟨writer, -, rfl⟩ := Option.map_eq_some_iff.mp taken
        rfl
      · cases taken
  | finish env =>
      obtain ⟨pc, finished⟩ := Option.ite_none_right_eq_some.mp taken
      obtain ⟨writer, -, rfl⟩ := Option.map_eq_some_iff.mp finished
      rfl

theorem Looping.step {thread after : WriterThread} {action : WriterAction}
    (looping : thread.Looping) (taken : thread.step action = some after) : after.Looping := by
  obtain ⟨running, finish, returned⟩ := looping
  cases action with
  | test =>
      obtain ⟨pc, ⟨⟩⟩ := Option.ite_none_right_eq_some.mp taken
      simp only [running]
      exact ⟨rfl, nofun, nofun⟩
  | handle env =>
      rw [WriterThread.step] at taken
      split at taken
      · obtain ⟨writer, -, rfl⟩ := Option.map_eq_some_iff.mp taken
        exact ⟨running, nofun, nofun⟩
      · cases taken
  | finish env =>
      obtain ⟨pc, -⟩ := Option.ite_none_right_eq_some.mp taken
      exact absurd pc finish

end WriterThread

/-! ## The points of `main` -/

/-- The client was never started, or it has been joined with all its pushes done. -/
def ClientEnded (success : Bool) : Object (ClientThread Buffer) → Prop
  | .absent => success = false
  | .live _ => False
  | .freed thread => success = true ∧ thread.client.thread = .finished ∧ thread.outbox = []

/-- The writer was never started, and then `main` fails, or it has been joined. -/
def WriterEnded (success : Bool) : Object WriterThread → Prop
  | .absent => success = false
  | .live _ => False
  | .freed thread => thread.pc = .returned

/-- The queue does not exist. -/
def QueueEnded : Object Queue → Prop
  | .live _ => False
  | _ => True

/-- The client runs, or `main` waits for its end. -/
def MainPoint.serves : MainPoint → Bool
  | .wait => true
  | .stopClient => true
  | .joinClient => true
  | _ => false

/-- What exists, and in what state, when `main` is at a point. -/
inductive Owns :
    MainPoint → Object Queue → Object WriterThread → Object (ClientThread Buffer) → Prop
  | load : Owns .load .absent .absent .absent
  | create (config : LoadedConfig) : Owns (.create config) .absent .absent .absent
  | startWriter (config : LoadedConfig) {queue : Queue} (opened : queue.closed = false) :
      Owns (.startWriter config) (.live queue) .absent .absent
  | startClient (config : LoadedConfig) {queue : Queue} {writer : WriterThread}
      (opened : queue.closed = false) (looping : writer.Looping) :
      Owns (.startClient config) (.live queue) (.live writer) .absent
  | serving {point : MainPoint} {queue : Queue} {writer : WriterThread}
      {client : ClientThread Buffer} (serves : point.serves = true)
      (opened : queue.closed = false) (looping : writer.Looping)
      (stopped : point = .joinClient → client.client.running = false) :
      Owns point (.live queue) (.live writer) (.live client)
  | stopWriter {success : Bool} {queue : Queue} {writer : WriterThread}
      {client : Object (ClientThread Buffer)} (opened : queue.closed = false)
      (looping : writer.Looping) (ended : ClientEnded success client) :
      Owns (.stopWriter success) (.live queue) (.live writer) client
  | closeQueue {success : Bool} {queue : Queue} {writer : WriterThread}
      {client : Object (ClientThread Buffer)} (stopped : writer.running = false)
      (ended : ClientEnded success client) :
      Owns (.closeQueue success) (.live queue) (.live writer) client
  | joinWriter {success : Bool} {queue : Queue} {writer : WriterThread}
      {client : Object (ClientThread Buffer)} (stopped : writer.running = false)
      (ended : ClientEnded success client) :
      Owns (.joinWriter success) (.live queue) (.live writer) client
  | destroy {success : Bool} {queue : Queue} {writer : Object WriterThread}
      {client : Object (ClientThread Buffer)} (joined : WriterEnded success writer)
      (ended : ClientEnded success client) : Owns (.destroy success) (.live queue) writer client
  | exited {success : Bool} {queue : Object Queue} {writer : Object WriterThread}
      {client : Object (ClientThread Buffer)} (destroyed : QueueEnded queue)
      (joined : WriterEnded success writer) (ended : ClientEnded success client) :
      Owns (.exited success) queue writer client

namespace Owns

variable {point : MainPoint} {queue : Object Queue} {writer : Object WriterThread}
  {client : Object (ClientThread Buffer)}

/-- The queue is used without being closed. -/
theorem of_queue {ring after : Queue} (owns : Owns point (.live ring) writer client)
    (same : after.closed = ring.closed) : Owns point (.live after) writer client := by
  cases owns with
  | startWriter config opened => exact .startWriter config (same.trans opened)
  | startClient config opened looping => exact .startClient config (same.trans opened) looping
  | serving serves opened looping stopped =>
      exact .serving serves (same.trans opened) looping stopped
  | stopWriter opened looping ended => exact .stopWriter (same.trans opened) looping ended
  | closeQueue stopped ended => exact .closeQueue stopped ended
  | joinWriter stopped ended => exact .joinWriter stopped ended
  | destroy joined ended => exact .destroy joined ended
  | exited destroyed joined ended => exact destroyed.elim

/-- The writer thread goes on. -/
theorem of_writer {thread after : WriterThread} (owns : Owns point queue (.live thread) client)
    (running : after.running = thread.running) (loops : thread.Looping → after.Looping) :
    Owns point queue (.live after) client := by
  cases owns with
  | startClient config opened looping => exact .startClient config opened (loops looping)
  | serving serves opened looping stopped => exact .serving serves opened (loops looping) stopped
  | stopWriter opened looping ended => exact .stopWriter opened (loops looping) ended
  | closeQueue stopped ended => exact .closeQueue (running.trans stopped) ended
  | joinWriter stopped ended => exact .joinWriter (running.trans stopped) ended
  | destroy joined ended => exact joined.elim
  | exited destroyed joined ended => exact joined.elim

/-- The client exists while `main` serves, and then the other objects are in use. -/
theorem serves_of_client {thread : ClientThread Buffer}
    (owns : Owns point queue writer (.live thread)) :
    ∃ ring loop, point.serves = true ∧ queue = .live ring ∧ ring.closed = false ∧
      writer = .live loop ∧ loop.Looping ∧
        (point = .joinClient → thread.client.running = false) := by
  cases owns with
  | serving serves opened looping stopped =>
      exact ⟨_, _, serves, rfl, opened, rfl, looping, stopped⟩
  | stopWriter opened looping ended => exact ended.elim
  | closeQueue stopped ended => exact ended.elim
  | joinWriter stopped ended => exact ended.elim
  | destroy joined ended => exact ended.elim
  | exited destroyed joined ended => exact ended.elim

/-- The client thread goes on. -/
theorem of_client {thread after : ClientThread Buffer}
    (owns : Owns point queue writer (.live thread))
    (running : after.client.running = thread.client.running) :
    Owns point queue writer (.live after) := by
  obtain ⟨ring, loop, serves, rfl, opened, rfl, looping, stopped⟩ := owns.serves_of_client
  exact .serving serves opened looping fun joins => running.trans (stopped joins)

/-- While the writer exists, the queue does. -/
theorem queue_of_writer {thread : WriterThread} (owns : Owns point queue (.live thread) client) :
    ∃ ring, queue = .live ring := by
  cases owns with
  | destroy joined ended => exact joined.elim
  | exited destroyed joined ended => exact joined.elim
  | _ => exact ⟨_, rfl⟩

end Owns

namespace Process

variable {getenv : String → Option CString} {unpack : Buffer → Option SubscribeUpdate}
  {process next : Process Buffer} {action : ProcessAction Buffer}

/-- What exists is what `main` needs at its point. -/
def Tidy (process : Process Buffer) : Prop :=
  Owns process.point process.queue process.writer process.client

theorem start_tidy : (start : Process Buffer).Tidy :=
  .load

theorem tidy_step (tidy : process.Tidy) (taken : process.step getenv unpack action = some next) :
    next.Tidy := by
  obtain ⟨point, signalled, queue, metrics, writer, client, accepted, refused⟩ := process
  have owns : Owns point queue writer client := tidy
  cases steps_of_step taken with
  | rejected here =>
      cases here
      cases owns with
      | load => exact Owns.exited trivial rfl rfl
      | serving serves => cases serves
  | loaded here accepted =>
      cases here
      cases owns with
      | load => exact Owns.create _
      | serving serves => cases serves
  | created here =>
      cases here
      cases owns with
      | create => exact Owns.startWriter _ rfl
      | serving serves => cases serves
  | uncreated here =>
      cases here
      cases owns with
      | create => exact Owns.exited trivial rfl rfl
      | serving serves => cases serves
  | writerStarted here =>
      cases here
      cases owns with
      | startWriter _ opened => exact Owns.startClient _ opened ⟨rfl, nofun, nofun⟩
      | serving serves => cases serves
  | writerFailed here =>
      cases here
      cases owns with
      | startWriter _ opened => exact Owns.destroy rfl rfl
      | serving serves => cases serves
  | clientStarted here =>
      cases here
      cases owns with
      | startClient _ opened looping => exact Owns.serving rfl opened looping nofun
      | serving serves => cases serves
  | clientFailed here =>
      cases here
      cases owns with
      | startClient _ opened looping => exact Owns.stopWriter opened looping rfl
      | serving serves => cases serves
  | waits here =>
      cases here
      cases owns with
      | serving _ opened looping _ =>
          cases signalled <;> exact Owns.serving rfl opened looping nofun
  | clientStopped here client =>
      cases here
      cases client
      cases owns with
      | serving _ opened looping _ => exact Owns.serving rfl opened looping fun _ => rfl
  | clientJoined here client finished flushed =>
      cases here
      cases client
      cases owns with
      | serving _ opened looping _ => exact Owns.stopWriter opened looping ⟨rfl, finished, flushed⟩
  | writerStopped here writer =>
      cases here
      cases writer
      cases owns with
      | stopWriter opened looping ended => exact Owns.closeQueue rfl ended
      | serving serves => cases serves
  | queueClosed here ring =>
      cases here
      cases ring
      cases owns with
      | closeQueue stopped ended => exact Owns.joinWriter stopped ended
      | serving serves => cases serves
  | writerJoined here writer returned =>
      cases here
      cases writer
      cases owns with
      | joinWriter stopped ended => exact Owns.destroy returned ended
      | serving serves => cases serves
  | destroyed here ring =>
      cases here
      cases ring
      cases owns with
      | destroy joined ended => exact Owns.exited trivial joined ended
      | serving serves => cases serves
  | signal => exact tidy
  | client live other went =>
      cases live
      exact owns.of_client (ClientThread.running_of_step other went)
  | push client ring waiting ran =>
      cases client
      cases ring
      exact (owns.of_queue (Queue.closed_of_push ran)).of_client rfl
  | writer live went =>
      cases live
      exact owns.of_writer (WriterThread.running_of_step went) fun looping => looping.step went
  | pop writer ring pc ran =>
      cases writer
      cases ring
      refine (owns.of_queue (Queue.closed_of_pop ran)).of_writer rfl fun looping => ?_
      exact ⟨looping.running, nofun, nofun⟩

/-- Every state of a process is tidy. -/
theorem tidy_run {actions : List (ProcessAction Buffer)}
    (execution : Execution.run (step getenv unpack) start actions = some process) :
    process.Tidy :=
  Execution.run_invariant (fun _ _ _ => tidy_step) start_tidy execution

/-- In every run the queue exists, open and with a running writer behind it, for as long as the
client does, and it exists for as long as the writer does.  When `main` has returned nothing is
left, and it reports success exactly when both threads were started and have ended. -/
theorem queue_outlives_threads {actions : List (ProcessAction Buffer)}
    (execution : Execution.run (step getenv unpack) start actions = some process) :
    (∀ thread, process.client = .live thread → ∃ ring loop, process.queue = .live ring ∧
        ring.closed = false ∧ process.writer = .live loop ∧ loop.running = true) ∧
      (∀ thread, process.writer = .live thread → ∃ ring, process.queue = .live ring) ∧
        ∀ success, process.point = .exited success → QueueEnded process.queue ∧
          WriterEnded success process.writer ∧ ClientEnded success process.client := by
  have owns : Owns process.point process.queue process.writer process.client := tidy_run execution
  refine ⟨fun thread client => ?_, fun thread writer => ?_, fun success exited => ?_⟩
  · rw [client] at owns
    obtain ⟨ring, loop, -, queue, opened, writer, looping, -⟩ := owns.serves_of_client
    exact ⟨ring, loop, queue, opened, writer, looping.running⟩
  · rw [writer] at owns
    exact owns.queue_of_writer
  · rw [exited] at owns
    generalize process.queue = queue at owns ⊢
    generalize process.writer = writer at owns ⊢
    generalize process.client = client at owns ⊢
    cases owns with
    | exited destroyed joined ended => exact ⟨destroyed, joined, ended⟩
    | serving serves => cases serves

/-- Favourable answers to `main`. -/
def mainEnv : MainEnv where
  memory := ⟨true, true⟩
  queueOk := true
  writerOk := true
  lastFlush := ⟨0, 0⟩
  clientOk := true

/-- A process that is stopped before its first subscription. -/
def earlySignal : List (ProcessAction Unit) :=
  [.main mainEnv, .main mainEnv, .main mainEnv, .main mainEnv, .signal, .main mainEnv,
    .main mainEnv, .client .advance, .main mainEnv, .main mainEnv, .main mainEnv, .writer .test,
    .writer (.finish Shutdown.healthyFlushAll), .main mainEnv, .main mainEnv]

/-- `main` has returned with success. -/
def succeeded (process : Process Buffer) : Bool :=
  match process.point with
  | .exited success => success
  | _ => false

theorem queue_outlives_threads_earlySignal :
    ∃ process : Process Unit, Execution.run (step (fun _ => none) fun _ => some .other) start
        earlySignal = some process ∧
      QueueEnded process.queue ∧ WriterEnded true process.writer ∧
        ClientEnded true process.client := by
  have outcome : (Execution.run (step (fun _ => none) fun _ => some .other) start
      earlySignal).map succeeded = some true := by
    decide +kernel
  obtain ⟨process, execution, exits⟩ := Option.map_eq_some_iff.mp outcome
  refine ⟨process, execution, (queue_outlives_threads execution).2.2 true ?_⟩
  rw [succeeded] at exits
  split at exits
  · next success exited => rw [exited, exits]
  · cases exits

end Process

end YureiGeyser
