import YureiGeyser.Config
import YureiGeyser.Shutdown
import YureiGeyser.Subscription

/-!
# The process

`main` creates the event queue, starts the writer and the client, waits for a signal and takes all
of it down again.  The three threads interleave: an action of the process is what one of them does
between two looks at shared data.  Objects on the heap say whether they have been freed.
-/

namespace YureiGeyser

/-- An object on the heap; a freed one keeps its last value for the proofs. -/
inductive Object (α : Type)
  | absent
  | live (value : α)
  | freed (last : α)

/-- What an object holds or has held. -/
def Object.last? {α : Type} : Object α → Option α
  | .absent => none
  | .live value => some value
  | .freed last => some last

/-- Where `main` is.  On the way out it knows whether it will report success. -/
inductive MainPoint
  /-- At `yurei_config_load`. -/
  | load
  /-- At `event_queue_create`. -/
  | create (config : LoadedConfig)
  /-- At `db_writer_start`. -/
  | startWriter (config : LoadedConfig)
  /-- At `geyser_client_start`. -/
  | startClient (config : LoadedConfig)
  /-- In the loop that waits for a signal. -/
  | wait
  /-- In `geyser_client_stop`, before it clears `running`. -/
  | stopClient
  /-- In `geyser_client_stop`, at `pthread_join`. -/
  | joinClient
  /-- In `db_writer_stop`, before it clears `running`. -/
  | stopWriter (success : Bool)
  /-- In `db_writer_stop`, at `event_queue_close`. -/
  | closeQueue (success : Bool)
  /-- In `db_writer_stop`, at `pthread_join`. -/
  | joinWriter (success : Bool)
  /-- At `event_queue_destroy`. -/
  | destroy (success : Bool)
  | exited (success : Bool)

/-- `struct geyser_client` with its thread. -/
structure ClientThread (Buffer : Type) where
  client : Client Buffer
  detector : ProtocolDetector
  /-- The events whose push has not returned. -/
  outbox : List Event
  /-- The messages that gRPC has handed over. -/
  received : List Buffer

/-- `struct db_writer` with its thread. -/
structure WriterThread where
  writer : DbWriter
  pc : WriterPc
  running : Bool

/-- The process, with the events whose push has returned. -/
structure Process (Buffer : Type) where
  point : MainPoint
  /-- `g_stop`. -/
  signalled : Bool
  queue : Object Queue
  /-- The counters of the queue. -/
  metrics : Metrics
  writer : Object WriterThread
  client : Object (ClientThread Buffer)
  accepted : List Event
  refused : List Event

/-- What the allocator, `pthread_create` and the clock answer to `main`. -/
structure MainEnv where
  memory : ConfigMemory
  queueOk : Bool
  writerOk : Bool
  lastFlush : Timeval
  clientOk : Bool

/-- What the writer thread does apart from its pop. -/
inductive WriterAction
  | test
  | handle (env : Iteration)
  | finish (env : FlushAllEnv)

/-- What a thread does, or what happens to the process. -/
inductive ProcessAction (Buffer : Type)
  | main (env : MainEnv)
  /-- The handler of SIGINT or SIGTERM runs. -/
  | signal
  /-- The client thread goes on, or the server ends its call. -/
  | client (action : ClientAction Buffer)
  /-- The client thread is in `event_queue_push`. -/
  | push
  | writer (action : WriterAction)
  /-- The writer thread is in `event_queue_pop`. -/
  | pop

variable {Buffer : Type}

/-- The server acts, not the thread. -/
def ClientAction.external : ClientAction Buffer → Bool
  | .serverEnds _ => true
  | _ => false

/-- `geyser_client_stop` acts, which `main` calls. -/
def ClientAction.stops : ClientAction Buffer → Bool
  | .stop => true
  | _ => false

/-- The message that an event of the completion queue comes with. -/
def ClientAction.received : ClientAction Buffer → List Buffer
  | .next _ buffer => buffer.toList
  | _ => []

/-- The thread does not go on while a push of `dispatch_event` waits. -/
def ClientThread.step (unpack : Buffer → Option SubscribeUpdate) (thread : ClientThread Buffer)
    (action : ClientAction Buffer) : Option (ClientThread Buffer) :=
  if thread.outbox.isEmpty || action.external then
    (thread.client.step thread.detector unpack action).map fun client =>
      { thread with
        client
        outbox := thread.outbox ++ client.dispatched.drop thread.client.dispatched.length
        received := thread.received ++ action.received }
  else none

/-- A step of the writer thread apart from its pop; behind the final flush it closes the
connection. -/
def WriterThread.step (thread : WriterThread) : WriterAction → Option WriterThread
  | .test =>
      if thread.pc = .test then
        some { thread with pc := if thread.running then .pop else .finish }
      else none
  | .handle env =>
      match thread.pc with
      | .handle popped =>
          (iteration { env with popped } thread.writer).toOption.map fun writer =>
            { thread with writer, pc := .test }
      | _ => none
  | .finish env =>
      if thread.pc = .finish then
        (flushAllBatches env thread.writer).toOption.map fun writer =>
          { thread with writer := { writer with conn := false }, pc := .returned }
      else none

namespace Process

/-- The process when `main` is entered. -/
def start : Process Buffer where
  point := .load
  signalled := false
  queue := .absent
  metrics := Metrics.init
  writer := .absent
  client := .absent
  accepted := []
  refused := []

/-- A step of `main`; it has none while it waits for a thread. -/
def mainStep (getenv : String → Option CString) (env : MainEnv) (process : Process Buffer) :
    Option (Process Buffer) :=
  match process.point, process.queue, process.writer, process.client with
  | .load, _, _, _ =>
      match yureiConfigLoad env.memory getenv with
      | none => some { process with point := .exited false }
      | some config => some { process with point := .create config }
  | .create config, _, _, _ =>
      if env.queueOk then
        some { process with
          point := .startWriter config
          queue := .live (eventQueueCreate config.queueCapacity.toNat) }
      else some { process with point := .exited false }
  | .startWriter config, _, _, _ =>
      if env.writerOk then
        some { process with
          point := .startClient config
          writer := .live ⟨dbWriterStart env.lastFlush Metrics.init, .test, true⟩ }
      else some { process with point := .destroy false }
  | .startClient config, _, _, _ =>
      if env.clientOk then
        some { process with
          point := .wait
          client := .live ⟨Client.start config.toYureiConfig, config.detector, [], []⟩ }
      else some { process with point := .stopWriter false }
  | .wait, _, _, _ =>
      some { process with point := if process.signalled then .stopClient else .wait }
  | .stopClient, _, _, .live thread =>
      some { process with
        point := .joinClient
        client := .live { thread with client := { thread.client with running := false } } }
  | .joinClient, _, _, .live thread =>
      match thread.client.thread, thread.outbox with
      | .finished, [] => some { process with point := .stopWriter true, client := .freed thread }
      | _, _ => none
  | .stopWriter success, _, .live thread, _ =>
      some { process with
        point := .closeQueue success, writer := .live { thread with running := false } }
  | .closeQueue success, .live queue, _, _ =>
      some { process with point := .joinWriter success, queue := .live (eventQueueClose queue) }
  | .joinWriter success, _, .live thread, _ =>
      if thread.pc = .returned then
        some { process with point := .destroy success, writer := .freed thread }
      else none
  | .destroy success, .live queue, _, _ =>
      some { process with point := .exited success, queue := .freed queue }
  | _, _, _, _ => none

/-- A step of the process.  A push or a pop without a result waits; a step that C leaves undefined
has none either, and a run ends before it. -/
def step (getenv : String → Option CString) (unpack : Buffer → Option SubscribeUpdate)
    (process : Process Buffer) : ProcessAction Buffer → Option (Process Buffer)
  | .main env => process.mainStep getenv env
  | .signal => some { process with signalled := true }
  | .client action =>
      match process.client with
      | .live thread =>
          if action.stops then none
          else (thread.step unpack action).map fun thread => { process with client := .live thread }
      | _ => none
  | .push =>
      match process.client, process.queue with
      | .live thread, .live queue =>
          match thread.outbox with
          | [] => none
          | event :: outbox =>
              (eventQueuePush event queue process.metrics).map fun (ok, queue, metrics) =>
                { process with
                  client := .live { thread with outbox }
                  queue := .live queue
                  metrics
                  accepted := process.accepted ++ if ok then [event] else []
                  refused := process.refused ++ if ok then [] else [event] }
      | _, _ => none
  | .writer action =>
      match process.writer with
      | .live thread =>
          (thread.step action).map fun thread => { process with writer := .live thread }
      | _ => none
  | .pop =>
      match process.writer, process.queue with
      | .live thread, .live queue =>
          if thread.pc = .pop then
            (eventQueuePop false queue process.metrics).map fun (result, queue, metrics) =>
              { process with
                writer := .live { thread with pc := .handle result }
                queue := .live queue
                metrics }
          else none
      | _, _ => none

/-! ## What a step can do -/

/-- The steps of a process, one case for each way through the code. -/
inductive Steps (getenv : String → Option CString) (unpack : Buffer → Option SubscribeUpdate)
    (process : Process Buffer) : ProcessAction Buffer → Process Buffer → Prop
  | rejected {env : MainEnv} (here : process.point = .load) :
      Steps getenv unpack process (.main env) { process with point := .exited false }
  | loaded {env : MainEnv} {config : LoadedConfig} (here : process.point = .load)
      (accepted : yureiConfigLoad env.memory getenv = some config) :
      Steps getenv unpack process (.main env) { process with point := .create config }
  | created {env : MainEnv} {config : LoadedConfig} (here : process.point = .create config) :
      Steps getenv unpack process (.main env)
        { process with
          point := .startWriter config
          queue := .live (eventQueueCreate config.queueCapacity.toNat) }
  | uncreated {env : MainEnv} {config : LoadedConfig} (here : process.point = .create config) :
      Steps getenv unpack process (.main env) { process with point := .exited false }
  | writerStarted {env : MainEnv} {config : LoadedConfig}
      (here : process.point = .startWriter config) :
      Steps getenv unpack process (.main env)
        { process with
          point := .startClient config
          writer := .live ⟨dbWriterStart env.lastFlush Metrics.init, .test, true⟩ }
  | writerFailed {env : MainEnv} {config : LoadedConfig}
      (here : process.point = .startWriter config) :
      Steps getenv unpack process (.main env) { process with point := .destroy false }
  | clientStarted {env : MainEnv} {config : LoadedConfig}
      (here : process.point = .startClient config) :
      Steps getenv unpack process (.main env)
        { process with
          point := .wait
          client := .live ⟨Client.start config.toYureiConfig, config.detector, [], []⟩ }
  | clientFailed {env : MainEnv} {config : LoadedConfig}
      (here : process.point = .startClient config) :
      Steps getenv unpack process (.main env) { process with point := .stopWriter false }
  | waits {env : MainEnv} (here : process.point = .wait) :
      Steps getenv unpack process (.main env)
        { process with point := if process.signalled then .stopClient else .wait }
  | clientStopped {env : MainEnv} {thread : ClientThread Buffer}
      (here : process.point = .stopClient) (client : process.client = .live thread) :
      Steps getenv unpack process (.main env)
        { process with
          point := .joinClient
          client := .live { thread with client := { thread.client with running := false } } }
  | clientJoined {env : MainEnv} {thread : ClientThread Buffer}
      (here : process.point = .joinClient) (client : process.client = .live thread)
      (finished : thread.client.thread = .finished) (flushed : thread.outbox = []) :
      Steps getenv unpack process (.main env)
        { process with point := .stopWriter true, client := .freed thread }
  | writerStopped {env : MainEnv} {success : Bool} {thread : WriterThread}
      (here : process.point = .stopWriter success) (writer : process.writer = .live thread) :
      Steps getenv unpack process (.main env)
        { process with
          point := .closeQueue success, writer := .live { thread with running := false } }
  | queueClosed {env : MainEnv} {success : Bool} {queue : Queue}
      (here : process.point = .closeQueue success) (ring : process.queue = .live queue) :
      Steps getenv unpack process (.main env)
        { process with point := .joinWriter success, queue := .live (eventQueueClose queue) }
  | writerJoined {env : MainEnv} {success : Bool} {thread : WriterThread}
      (here : process.point = .joinWriter success) (writer : process.writer = .live thread)
      (returned : thread.pc = .returned) :
      Steps getenv unpack process (.main env)
        { process with point := .destroy success, writer := .freed thread }
  | destroyed {env : MainEnv} {success : Bool} {queue : Queue}
      (here : process.point = .destroy success) (ring : process.queue = .live queue) :
      Steps getenv unpack process (.main env)
        { process with point := .exited success, queue := .freed queue }
  | signal : Steps getenv unpack process .signal { process with signalled := true }
  | client {thread after : ClientThread Buffer} {action : ClientAction Buffer}
      (client : process.client = .live thread) (other : action.stops = false)
      (taken : thread.step unpack action = some after) :
      Steps getenv unpack process (.client action) { process with client := .live after }
  | push {thread : ClientThread Buffer} {queue after : Queue} {event : Event}
      {outbox : List Event} {ok : Bool} {metrics : Metrics} (client : process.client = .live thread)
      (ring : process.queue = .live queue) (waiting : thread.outbox = event :: outbox)
      (ran : eventQueuePush event queue process.metrics = some (ok, after, metrics)) :
      Steps getenv unpack process .push
        { process with
          client := .live { thread with outbox }
          queue := .live after
          metrics
          accepted := process.accepted ++ if ok then [event] else []
          refused := process.refused ++ if ok then [] else [event] }
  | writer {thread after : WriterThread} {action : WriterAction}
      (writer : process.writer = .live thread) (taken : thread.step action = some after) :
      Steps getenv unpack process (.writer action) { process with writer := .live after }
  | pop {thread : WriterThread} {queue after : Queue} {result : Option Event} {metrics : Metrics}
      (writer : process.writer = .live thread) (ring : process.queue = .live queue)
      (pc : thread.pc = .pop)
      (ran : eventQueuePop false queue process.metrics = some (result, after, metrics)) :
      Steps getenv unpack process .pop
        { process with
          writer := .live { thread with pc := .handle result }
          queue := .live after
          metrics }

section Inversion

variable {getenv : String → Option CString} {unpack : Buffer → Option SubscribeUpdate}
  {process next : Process Buffer}

theorem steps_of_mainStep {env : MainEnv} (taken : process.mainStep getenv env = some next) :
    Steps getenv unpack process (.main env) next := by
  rw [mainStep] at taken
  split at taken
  · next here =>
      split at taken
      · cases taken
        exact .rejected here
      · next config accepted =>
          cases taken
          exact .loaded here accepted
  · next config here =>
      split at taken <;> cases taken
      · exact .created here
      · exact .uncreated here
  · next config here =>
      split at taken <;> cases taken
      · exact .writerStarted here
      · exact .writerFailed here
  · next config here =>
      split at taken <;> cases taken
      · exact .clientStarted here
      · exact .clientFailed here
  · next here =>
      cases taken
      exact .waits here
  · next thread here client =>
      cases taken
      exact .clientStopped here client
  · next thread here client =>
      split at taken
      · next finished flushed =>
          cases taken
          exact .clientJoined here client finished flushed
      · cases taken
  · next success thread here writer =>
      cases taken
      exact .writerStopped here writer
  · next success queue here ring =>
      cases taken
      exact .queueClosed here ring
  · next success thread here writer =>
      split at taken
      · next returned =>
          cases taken
          exact .writerJoined here writer returned
      · cases taken
  · next success queue here ring =>
      cases taken
      exact .destroyed here ring
  · cases taken

/-- Every step is one of the cases. -/
theorem steps_of_step {action : ProcessAction Buffer}
    (taken : process.step getenv unpack action = some next) :
    Steps getenv unpack process action next := by
  cases action with
  | main env => exact steps_of_mainStep taken
  | signal =>
      cases taken
      exact .signal
  | client action =>
      rw [step] at taken
      split at taken
      · next thread client =>
          obtain ⟨other, stepped⟩ := Option.ite_none_left_eq_some.mp taken
          obtain ⟨after, went, rfl⟩ := Option.map_eq_some_iff.mp stepped
          exact .client client (Bool.eq_false_iff.mpr other) went
      · cases taken
  | push =>
      rw [step] at taken
      split at taken
      · next thread queue client ring =>
          split at taken
          · cases taken
          · next event outbox waiting =>
              obtain ⟨⟨ok, after, metrics⟩, ran, rfl⟩ := Option.map_eq_some_iff.mp taken
              exact .push client ring waiting ran
      · cases taken
  | writer action =>
      rw [step] at taken
      split at taken
      · next thread writer =>
          obtain ⟨after, went, rfl⟩ := Option.map_eq_some_iff.mp taken
          exact .writer writer went
      · cases taken
  | pop =>
      rw [step] at taken
      split at taken
      · next thread queue writer ring =>
          obtain ⟨pc, popped⟩ := Option.ite_none_right_eq_some.mp taken
          obtain ⟨⟨result, after, metrics⟩, ran, rfl⟩ := Option.map_eq_some_iff.mp popped
          exact .pop writer ring pc ran
      · cases taken

end Inversion

end Process

end YureiGeyser
