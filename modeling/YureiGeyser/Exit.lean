import YureiGeyser.Components
import YureiGeyser.Deliveries
import YureiGeyser.Liveness

/-!
# `main` can always return

`geyser_client_stop` joins the client before anybody closes the queue, and a client may then be
waiting for room in the queue.  The writer is still running, so it makes the room; only a batch that
is full or a message that cannot be handled keeps the process from its end.
-/

namespace YureiGeyser

variable {Buffer : Type}

/-! ## The writer makes room -/

/-- Both batches have room for one more event. -/
def DbWriter.Roomy (writer : DbWriter) : Prop :=
  writer.pumpfunBatch.length < batchSize ∧ writer.raydiumBatch.length < batchSize

theorem roomy_preserved (admissible : FlushEnv → Prop) :
    FlushesPreserve admissible DbWriter.Roomy := by
  have room : 0 < batchSize := Nat.zero_lt_succ 99
  exact @FlushesPreserve.of_lengths admissible (· < batchSize) (· < batchSize) room room

/-- A full batch is stored at once when every answer is favourable. -/
theorem DbWriter.Roomy.store {writer next : DbWriter} (roomy : writer.Roomy) {env : Iteration}
    (healthy : env.sizeFlush.Healthy) {event : Event}
    (stored : storeEvent env event writer = .ok next) : next.Roomy := by
  rcases storeEvent_cases stored with ⟨trade, data, room, outcome⟩ | ⟨swap, data, room, outcome⟩ |
    ⟨data, rfl⟩
  · rcases outcome with ⟨-, flushed⟩ | ⟨spare, rfl⟩
    · obtain ⟨result, outcome, flushed'⟩ := flushPumpfunBatch_ok env.sizeFlush
        { writer with pumpfunBatch := writer.pumpfunBatch ++ [event.entry trade] }
      rw [flushed'] at flushed
      cases flushed
      refine ⟨?_, roomy.2⟩
      rw [DbWriter.settlePumpfun, outcome.batch_eq_nil healthy]
      exact Nat.zero_lt_succ 99
    · refine ⟨?_, roomy.2⟩
      rw [List.length_append]
      exact spare
  · rcases outcome with ⟨-, flushed⟩ | ⟨spare, rfl⟩
    · obtain ⟨result, outcome, flushed'⟩ := flushRaydiumBatch_ok env.sizeFlush
        { writer with raydiumBatch := writer.raydiumBatch ++ [event.entry swap] }
      rw [flushed'] at flushed
      cases flushed
      refine ⟨roomy.1, ?_⟩
      rw [DbWriter.settleRaydium, outcome.batch_eq_nil healthy]
      exact Nat.zero_lt_succ 99
    · refine ⟨roomy.1, ?_⟩
      rw [List.length_append]
      exact spare
  · exact roomy

/-- With room in the batches and favourable answers an iteration succeeds and leaves room. -/
theorem DbWriter.Roomy.exists_iteration {writer : DbWriter} (roomy : writer.Roomy) {env : Iteration}
    (healthy : env.sizeFlush.Healthy) : ∃ next, iteration env writer = .ok next ∧ next.Roomy := by
  have timer : ∀ writer : DbWriter, writer.Roomy →
      ∃ next, flushOnTimer env writer = .ok next ∧ next.Roomy := by
    intro writer roomy
    obtain ⟨next, flushed⟩ := flushOnTimer_ok env writer
    exact ⟨next, flushed, flushOnTimer_preserves (roomy_preserved fun _ => True)
      ⟨trivial, trivial, trivial⟩ roomy flushed⟩
  rw [iteration]
  cases env.popped with
  | none => exact timer writer roomy
  | some event =>
      have room : (writer.pop event).count event.type < batchSize := by
        cases event.type with
        | none => exact Nat.zero_lt_succ 99
        | pumpfunTrade => exact roomy.1
        | raydiumSwap => exact roomy.2
      obtain ⟨middle, stored⟩ := (storeEvent_ok_iff env event (writer.pop event)).mpr room
      have popped : (writer.pop event).Roomy := roomy
      have kept := popped.store healthy stored
      simp only [stored, bind, Except.bind]
      exact timer middle kept

/-- An iteration in which everything goes well. -/
def healthyIteration : Iteration :=
  ⟨none, Shutdown.healthyFlush, ⟨0, 0⟩, Shutdown.healthyFlushAll⟩

theorem WriterThread.handles {thread : WriterThread} (roomy : thread.writer.Roomy)
    {popped : Option Event} (here : thread.pc = .handle popped) :
    ∃ writer, thread.step (.handle healthyIteration) =
      some { thread with writer, pc := .test } ∧ writer.Roomy := by
  obtain ⟨writer, iterated, kept⟩ := @DbWriter.Roomy.exists_iteration _ roomy
    { healthyIteration with popped } Shutdown.healthyFlush_healthy
  refine ⟨writer, ?_, kept⟩
  simp only [WriterThread.step, here, iterated]
  rfl

/-- The steps of the writer thread up to its next pop. -/
def WriterPc.lead : WriterPc → ℕ
  | .handle _ => 2
  | .test => 1
  | _ => 0

theorem Queue.Rings.capacity_pos {queue : Queue} (rings : queue.Rings) : 0 < queue.capacity := by
  obtain ⟨capacity, channel, represents⟩ := rings
  rw [represents.capacity_eq]
  exact Nat.zero_lt_of_lt represents.head_lt

/-! ## The process -/

theorem Owns.client_of_serves {point : MainPoint} {queue : Object Queue}
    {writer : Object WriterThread} {client : Object (ClientThread Buffer)}
    (owns : Owns point queue writer client) (serves : point.serves = true) :
    ∃ thread, client = .live thread := by
  cases owns with
  | serving => exact ⟨_, rfl⟩
  | _ => cases serves

theorem Owns.writer_of_stopWriter {success : Bool} {queue : Object Queue}
    {writer : Object WriterThread} {client : Object (ClientThread Buffer)}
    (owns : Owns (.stopWriter success) queue writer client) : ∃ thread, writer = .live thread := by
  cases owns with
  | serving serves => cases serves
  | stopWriter => exact ⟨_, rfl⟩

namespace Process

variable (getenv : String → Option CString) (unpack : Buffer → Option SubscribeUpdate)

/-- `main` can return. -/
def Exits (process : Process Buffer) : Prop :=
  Execution.CanReach (step getenv unpack)
    (fun final => ∃ success, final.point = .exited success) process

/-- A reachable state in which the batches have room and the message in hand can be handled. -/
structure Unblocked (process : Process Buffer) : Prop where
  reached : ∃ actions, Execution.run (step getenv unpack) start actions = some process
  roomy : ∀ thread, process.writer = .live thread → thread.writer.Roomy
  readable : ∀ thread, process.client = .live thread →
    thread.client.Readable thread.detector unpack

/-- Unfavourable answers to `main`. -/
def failingEnv : MainEnv where
  memory := ⟨false, false⟩
  queueOk := false
  writerOk := false
  lastFlush := ⟨0, 0⟩
  clientOk := false

/-- The steps of the writer up to its next pop, and the pops up to an empty queue. -/
def backlog (process : Process Buffer) : ℕ :=
  (match process.queue with
    | .live queue => 3 * queue.size
    | _ => 0) +
    match process.writer with
    | .live thread => thread.pc.lead
    | _ => 0

/-- What lies ahead of the client: its own steps and its pushes. -/
def clientAhead (process : Process Buffer) : ℕ :=
  match process.client with
  | .live thread => 2 * thread.client.ahead + thread.outbox.length
  | _ => 0

/-- `main` waits for a client whose way to its end is shorter. -/
def Nearer (before after : Process Buffer) : Prop :=
  (after.Unblocked getenv unpack ∧ after.point = .joinClient) ∧
    after.clientAhead < before.clientAhead

variable {getenv : String → Option CString} {unpack : Buffer → Option SubscribeUpdate}
  {process next : Process Buffer} {action : ProcessAction Buffer}

namespace Unblocked

theorem tidy (unblocked : process.Unblocked getenv unpack) : process.Tidy := by
  obtain ⟨actions, execution⟩ := unblocked.reached
  exact tidy_run execution

theorem rings (unblocked : process.Unblocked getenv unpack) {queue : Queue}
    (ring : process.queue = .live queue) : queue.Rings := by
  obtain ⟨actions, execution⟩ := unblocked.reached
  refine (sound_run execution).flows.rings queue ?_
  rw [ring]
  rfl

/-- The writer and the client are not touched. -/
theorem of_same (unblocked : process.Unblocked getenv unpack)
    (went : process.step getenv unpack action = some next) (writer : next.writer = process.writer)
    (client : next.client = process.client) : next.Unblocked getenv unpack := by
  obtain ⟨⟨actions, execution⟩, roomy, readable⟩ := unblocked
  refine ⟨⟨actions ++ [action], Execution.run_snoc execution went⟩, ?_, ?_⟩
  · rw [writer]
    exact roomy
  · rw [client]
    exact readable

/-- The writer goes on and keeps room in its batches. -/
theorem of_writer (unblocked : process.Unblocked getenv unpack)
    (went : process.step getenv unpack action = some next) {thread : WriterThread}
    (writer : next.writer = .live thread) (roomy : thread.writer.Roomy)
    (client : next.client = process.client) : next.Unblocked getenv unpack := by
  obtain ⟨⟨actions, execution⟩, -, readable⟩ := unblocked
  refine ⟨⟨actions ++ [action], Execution.run_snoc execution went⟩, fun thread live => ?_, ?_⟩
  · rw [writer] at live
    cases live
    exact roomy
  · rw [client]
    exact readable

/-- A pop returns at once. -/
theorem of_pop (unblocked : process.Unblocked getenv unpack) {thread : WriterThread}
    (live : process.writer = .live thread) (here : thread.pc = .pop) {queue : Queue}
    (ring : process.queue = .live queue) :
    ∃ result after metrics, eventQueuePop false queue process.metrics =
        some (result, after, metrics) ∧
      process.step getenv unpack .pop = some { process with
        writer := .live { thread with pc := .handle result }, queue := .live after, metrics } ∧
      Unblocked getenv unpack { process with
        writer := .live { thread with pc := .handle result }, queue := .live after, metrics } := by
  obtain ⟨⟨result, after, metrics⟩, ran⟩ : ∃ outcome,
      eventQueuePop false queue process.metrics = some outcome := by
    rw [eventQueuePop]
    split
    · exact ⟨_, rfl⟩
    · split <;> exact ⟨_, rfl⟩
  have went : process.step getenv unpack .pop = some { process with
      writer := .live { thread with pc := .handle result }, queue := .live after, metrics } := by
    simp only [step, live, ring, here, ran]
    rfl
  exact ⟨result, after, metrics, ran, went,
    unblocked.of_writer went rfl (unblocked.roomy thread live) rfl⟩

/-- A step of the writer thread keeps the process unblocked. -/
theorem of_writerStep (unblocked : process.Unblocked getenv unpack) {thread after : WriterThread}
    (live : process.writer = .live thread) {action : WriterAction}
    (taken : thread.step action = some after) (roomy : after.writer.Roomy) :
    process.step getenv unpack (.writer action) =
        some { process with writer := .live after } ∧
      Unblocked getenv unpack { process with writer := .live after } := by
  have went : process.step getenv unpack (.writer action) =
      some { process with writer := .live after } := by
    simp only [step, live, taken]
    rfl
  exact ⟨went, unblocked.of_writer went rfl roomy rfl⟩

/-- A stopped writer that has not returned has a step. -/
theorem writer_goes_on (unblocked : process.Unblocked getenv unpack) {thread : WriterThread}
    (live : process.writer = .live thread) (unreturned : thread.pc ≠ .returned) {queue : Queue}
    (ring : process.queue = .live queue) :
    ∃ action next, action.works = true ∧ process.step getenv unpack action = some next ∧
      next.Unblocked getenv unpack := by
  have roomy := unblocked.roomy thread live
  cases here : thread.pc with
  | returned => exact absurd here unreturned
  | test =>
      have taken : thread.step .test =
          some { thread with pc := if thread.running then .pop else .finish } :=
        if_pos here
      obtain ⟨went, kept⟩ := unblocked.of_writerStep live taken roomy
      exact ⟨_, _, rfl, went, kept⟩
  | pop =>
      obtain ⟨result, after, metrics, -, went, kept⟩ := unblocked.of_pop live here ring
      exact ⟨_, _, rfl, went, kept⟩
  | handle popped =>
      obtain ⟨writer, taken, kept⟩ := WriterThread.handles roomy here
      obtain ⟨went, kept⟩ := unblocked.of_writerStep live taken kept
      exact ⟨_, _, rfl, went, kept⟩
  | finish =>
      obtain ⟨writer, flushed⟩ := flushAllBatches_ok Shutdown.healthyFlushAll thread.writer
      have left : writer.Roomy := flushAllBatches_preserves (roomy_preserved fun _ => True) trivial
        trivial roomy flushed
      have taken : thread.step (.finish Shutdown.healthyFlushAll) =
          some { thread with writer := { writer with conn := false }, pc := .returned } := by
        rw [WriterThread.step, if_pos here, flushed]
        rfl
      obtain ⟨went, kept⟩ := unblocked.of_writerStep live taken left
      exact ⟨_, _, rfl, went, kept⟩

/-- A closing process that has not ended has a step. -/
theorem closes (unblocked : process.Unblocked getenv unpack)
    (closing : process.point.closing = true)
    (unended : ¬ ∃ success, process.point = .exited success) :
    ∃ action next, action.works = true ∧ process.step getenv unpack action = some next ∧
      next.Unblocked getenv unpack := by
  have owns : Owns process.point process.queue process.writer process.client := unblocked.tidy
  obtain ⟨point, signalled, queue, metrics, writer, client, accepted, refused⟩ := process
  cases owns with
  | load | create | startWriter | startClient | stopWriter => cases closing
  | serving serves => cases point <;> simp [MainPoint.serves, MainPoint.closing] at serves closing
  | @closeQueue success queue thread client stopped ended =>
      have went : step getenv unpack ⟨.closeQueue success, signalled, .live queue, metrics,
          .live thread, client, accepted, refused⟩ (.main mainEnv) =
            some ⟨.joinWriter success, signalled, .live (eventQueueClose queue), metrics,
              .live thread, client, accepted, refused⟩ :=
        rfl
      exact ⟨_, _, rfl, went, unblocked.of_same went rfl rfl⟩
  | @joinWriter success queue thread client stopped ended =>
      by_cases returned : thread.pc = .returned
      · have went : step getenv unpack ⟨.joinWriter success, signalled, .live queue, metrics,
            .live thread, client, accepted, refused⟩ (.main mainEnv) =
              some ⟨.destroy success, signalled, .live queue, metrics, .freed thread, client,
                accepted, refused⟩ :=
          if_pos returned
        obtain ⟨⟨actions, execution⟩, -, readable⟩ := unblocked
        exact ⟨.main mainEnv, _, rfl, went,
          ⟨actions ++ [.main mainEnv], Execution.run_snoc execution went⟩,
          (fun _ live => by cases live), readable⟩
      · exact unblocked.writer_goes_on rfl returned rfl
  | @destroy success queue writer client joined ended =>
      have went : step getenv unpack ⟨.destroy success, signalled, .live queue, metrics, writer,
          client, accepted, refused⟩ (.main mainEnv) =
            some ⟨.exited success, signalled, .freed queue, metrics, writer, client, accepted,
              refused⟩ :=
        rfl
      exact ⟨_, _, rfl, went, unblocked.of_same went rfl rfl⟩
  | exited => exact absurd ⟨_, rfl⟩ unended

/-- A closing process ends. -/
theorem exits_of_closing (unblocked : process.Unblocked getenv unpack)
    (closing : process.point.closing = true) : process.Exits getenv unpack := by
  refine @Execution.CanReach.of_measure _ _ _ _ _
    (fun process : Process Buffer => process.Unblocked getenv unpack ∧
      process.point.closing = true) closingDistance ?_ ⟨unblocked, closing⟩
  rintro process ⟨unblocked, closing⟩ unended
  obtain ⟨action, next, works, went, kept⟩ := unblocked.closes closing unended
  have nearer := (closingDistance_step unblocked.tidy closing went).1
  rw [works] at nearer
  exact .of_step went (.here ⟨⟨kept, closing_step closing went⟩, nearer⟩)

/-- While `main` and the client stand still, the writer makes room in the queue. -/
theorem makes_room (unblocked : process.Unblocked getenv unpack) {sender : ClientThread Buffer}
    (live : process.client = .live sender) :
    Execution.CanReach (step getenv unpack) (fun next => next.Unblocked getenv unpack ∧
      next.point = process.point ∧ next.client = process.client ∧
        ∃ queue, next.queue = .live queue ∧ queue.size ≠ queue.capacity) process := by
  refine @Execution.CanReach.of_measure _ _ _ _ _
    (fun next : Process Buffer => next.Unblocked getenv unpack ∧ next.point = process.point ∧
      next.client = process.client) backlog ?_ ⟨unblocked, rfl, rfl⟩
  rintro middle ⟨unblocked, point, client⟩ full
  have owns : Owns middle.point middle.queue middle.writer middle.client := unblocked.tidy
  rw [client, live] at owns
  obtain ⟨queue, thread, -, ring, -, writer, looping, -⟩ := owns.serves_of_client
  have size : queue.size = queue.capacity := by
    by_contra room
    exact full ⟨unblocked, point, client, queue, ring, room⟩
  have roomy := unblocked.roomy thread writer
  cases here : thread.pc with
  | finish => exact absurd here looping.finish
  | returned => exact absurd here looping.returned
  | test =>
      have taken : thread.step .test =
          some { thread with pc := if thread.running then .pop else .finish } :=
        if_pos here
      obtain ⟨went, kept⟩ := unblocked.of_writerStep writer taken roomy
      refine .of_step went (.here ⟨⟨kept, point, client⟩, ?_⟩)
      simp only [backlog, ring, writer, here, looping.running, WriterPc.lead, if_true]
      omega
  | handle popped =>
      obtain ⟨after, taken, left⟩ := WriterThread.handles roomy here
      obtain ⟨went, kept⟩ := unblocked.of_writerStep writer taken left
      refine .of_step went (.here ⟨⟨kept, point, client⟩, ?_⟩)
      simp only [backlog, ring, writer, here, WriterPc.lead]
      omega
  | pop =>
      obtain ⟨result, after, metrics, ran, went, kept⟩ := unblocked.of_pop writer here ring
      have smaller := eventQueuePop_size ran
      have positive := (unblocked.rings ring).capacity_pos
      refine .of_step went (.here ⟨⟨kept, point, client⟩, ?_⟩)
      simp only [backlog, ring, writer, here, WriterPc.lead]
      omega

/-- `main` stops the writer and returns. -/
theorem exits_of_stopWriter (unblocked : process.Unblocked getenv unpack) {success : Bool}
    (here : process.point = .stopWriter success) : process.Exits getenv unpack := by
  have owns : Owns process.point process.queue process.writer process.client := unblocked.tidy
  rw [here] at owns
  obtain ⟨thread, live⟩ := owns.writer_of_stopWriter
  have went : process.step getenv unpack (.main mainEnv) = some { process with
      point := .closeQueue success, writer := .live { thread with running := false } } := by
    simp only [step, mainStep, here, live]
  have roomy := unblocked.roomy thread live
  exact .of_step went ((unblocked.of_writer went rfl roomy rfl).exits_of_closing rfl)

/-- A push succeeds once there is room. -/
theorem pushes (unblocked : process.Unblocked getenv unpack) (here : process.point = .joinClient)
    {sender : ClientThread Buffer} (live : process.client = .live sender) {event : Event}
    {outbox : List Event} (waiting : sender.outbox = event :: outbox) :
    Execution.CanReach (step getenv unpack) (Nearer getenv unpack process) process := by
  refine (unblocked.makes_room live).trans ?_
  rintro middle ⟨unblocked, point, client, queue, ring, room⟩
  rw [live] at client
  obtain ⟨⟨ok, after, metrics⟩, ran⟩ : ∃ outcome,
      eventQueuePush event queue middle.metrics = some outcome := by
    have free : ¬ (!queue.closed && queue.size == queue.capacity) = true := by
      rw [Bool.and_eq_true, beq_iff_eq]
      exact fun full => room full.2
    rw [eventQueuePush, if_neg free]
    split <;> exact ⟨_, rfl⟩
  have went : middle.step getenv unpack .push = some { middle with
      client := .live { sender with outbox }
      queue := .live after
      metrics
      accepted := middle.accepted ++ if ok then [event] else []
      refused := middle.refused ++ if ok then [] else [event] } := by
    simp only [step, client, ring, waiting, ran]
    rfl
  obtain ⟨⟨actions, execution⟩, roomy, readable⟩ := unblocked
  refine .of_step went (.here ⟨⟨⟨⟨actions ++ [.push], Execution.run_snoc execution went⟩, roomy,
    fun thread same => ?_⟩, point.trans here⟩, ?_⟩)
  · cases same
    exact readable sender client
  · simp only [clientAhead, live, waiting, List.length_cons]
    omega

/-- A client without a push takes a step of its own. -/
theorem client_goes_on (unblocked : process.Unblocked getenv unpack)
    (here : process.point = .joinClient) {sender : ClientThread Buffer}
    (live : process.client = .live sender) (flushed : sender.outbox = [])
    (unfinished : sender.client.thread ≠ .finished) :
    Execution.CanReach (step getenv unpack) (Nearer getenv unpack process) process := by
  have stopped : sender.client.running = false :=
    unblocked.tidy.stopped (by rw [here]; rfl) live
  have readable := unblocked.readable sender live
  obtain ⟨⟨actions, execution⟩, roomy, -⟩ := unblocked
  obtain ⟨memory, config, moves, -, detector, ran⟩ :=
    (components_run execution).1 sender (by rw [live]; rfl)
  obtain ⟨tracked, answerable⟩ := Client.answerable_run ran
  obtain ⟨action, next, other, taken, nearer, empty⟩ :=
    Client.approaches stopped unfinished tracked answerable readable
  have few := Client.dispatched_length_le taken
  have went : process.step getenv unpack (.client action) = some { process with
      client := .live { sender with
        client := next
        outbox := sender.outbox ++ next.dispatched.drop sender.client.dispatched.length
        received := sender.received ++ action.received } } := by
    simp only [step, live, other, ClientThread.step, flushed, taken]
    rfl
  refine .of_step went (.here ⟨⟨⟨⟨actions ++ [.client action],
    Execution.run_snoc execution went⟩, roomy, fun thread same => ?_⟩, here⟩, ?_⟩)
  · cases same
    exact empty
  · simp only [clientAhead, live, flushed, List.nil_append, List.length_nil]
    omega

/-- `main` joins the client and returns. -/
theorem exits_of_joinClient (unblocked : process.Unblocked getenv unpack)
    (here : process.point = .joinClient) : process.Exits getenv unpack := by
  have ends : Execution.CanReach (step getenv unpack)
      (fun next => next.Unblocked getenv unpack ∧ next.point = .stopWriter true) process := by
    have idle : Execution.CanReach (step getenv unpack)
        (fun next => next.Unblocked getenv unpack ∧ next.point = .joinClient ∧
          ∃ sender, next.client = .live sender ∧ sender.client.thread = .finished ∧
            sender.outbox = []) process := by
      refine @Execution.CanReach.of_measure _ _ _ _ _
        (fun next : Process Buffer => next.Unblocked getenv unpack ∧ next.point = .joinClient)
        clientAhead ?_ ⟨unblocked, here⟩
      rintro middle ⟨unblocked, here⟩ busy
      have owns : Owns middle.point middle.queue middle.writer middle.client := unblocked.tidy
      rw [here] at owns
      obtain ⟨sender, live⟩ := owns.client_of_serves rfl
      cases outbox : sender.outbox with
      | cons event rest => exact unblocked.pushes here live outbox
      | nil =>
          refine unblocked.client_goes_on here live outbox fun finished => ?_
          exact busy ⟨unblocked, here, sender, live, finished, outbox⟩
    refine idle.trans ?_
    rintro middle ⟨unblocked, here, sender, live, finished, flushed⟩
    have went : middle.step getenv unpack (.main mainEnv) =
        some { middle with point := .stopWriter true, client := .freed sender } := by
      simp only [step, mainStep, here, live, finished, flushed]
    obtain ⟨⟨actions, execution⟩, roomy, -⟩ := unblocked
    exact .of_step went (.here ⟨⟨⟨actions ++ [.main mainEnv], Execution.run_snoc execution went⟩,
      roomy, fun _ live => by cases live⟩, rfl⟩)
  refine ends.trans ?_
  rintro middle ⟨unblocked, here⟩
  exact unblocked.exits_of_stopWriter here

/-- `main` clears the flag of the client. -/
theorem exits_of_stopClient (unblocked : process.Unblocked getenv unpack)
    (here : process.point = .stopClient) : process.Exits getenv unpack := by
  have owns : Owns process.point process.queue process.writer process.client := unblocked.tidy
  rw [here] at owns
  obtain ⟨thread, live⟩ := owns.client_of_serves rfl
  have went : process.step getenv unpack (.main mainEnv) = some { process with
      point := .joinClient
      client := .live { thread with client := { thread.client with running := false } } } := by
    simp only [step, mainStep, here, live]
  have kept := unblocked.readable thread live
  obtain ⟨⟨actions, execution⟩, roomy, -⟩ := unblocked
  refine .of_step went (exits_of_joinClient ⟨⟨actions ++ [.main mainEnv],
    Execution.run_snoc execution went⟩, roomy, fun thread same => ?_⟩ rfl)
  cases same
  exact kept

/-- The signal arrives. -/
theorem exits_of_wait (unblocked : process.Unblocked getenv unpack)
    (here : process.point = .wait) : process.Exits getenv unpack := by
  have signals : process.step getenv unpack .signal = some { process with signalled := true } := rfl
  have signalled : Unblocked getenv unpack { process with signalled := true } :=
    unblocked.of_same signals rfl rfl
  have went : step getenv unpack { process with signalled := true } (.main mainEnv) =
      some { process with signalled := true, point := .stopClient } := by
    simp only [step, mainStep, here]
    rfl
  exact .of_step signals (.of_step went
    ((signalled.of_same went rfl rfl).exits_of_stopClient rfl))

theorem exits_of_create {config : LoadedConfig} (here : process.point = .create config) :
    process.Exits getenv unpack := by
  have went : process.step getenv unpack (.main failingEnv) =
      some { process with point := .exited false } := by
    simp only [step, mainStep, here]
    rfl
  exact .of_step went (.here ⟨false, rfl⟩)

/-- The first steps of `main` may fail, and then the signal may arrive. -/
theorem exits (unblocked : process.Unblocked getenv unpack) : process.Exits getenv unpack := by
  cases here : process.point with
  | load =>
      cases loaded : yureiConfigLoad failingEnv.memory getenv with
      | none =>
          have went : process.step getenv unpack (.main failingEnv) =
              some { process with point := .exited false } := by
            simp only [step, mainStep, here, loaded]
          exact .of_step went (.here ⟨false, rfl⟩)
      | some config =>
          have went : process.step getenv unpack (.main failingEnv) =
              some { process with point := .create config } := by
            simp only [step, mainStep, here, loaded]
          exact .of_step went (exits_of_create rfl)
  | create config => exact exits_of_create here
  | startWriter config =>
      have went : process.step getenv unpack (.main failingEnv) =
          some { process with point := .destroy false } := by
        simp only [step, mainStep, here]
        rfl
      exact .of_step went ((unblocked.of_same went rfl rfl).exits_of_closing rfl)
  | startClient config =>
      have went : process.step getenv unpack (.main failingEnv) =
          some { process with point := .stopWriter false } := by
        simp only [step, mainStep, here]
        rfl
      exact .of_step went ((unblocked.of_same went rfl rfl).exits_of_stopWriter rfl)
  | wait => exact unblocked.exits_of_wait here
  | stopClient => exact unblocked.exits_of_stopClient here
  | joinClient => exact unblocked.exits_of_joinClient here
  | stopWriter success => exact unblocked.exits_of_stopWriter here
  | closeQueue success | joinWriter success | destroy success | exited success =>
      refine unblocked.exits_of_closing ?_
      rw [here]
      rfl

end Unblocked

/-- From every reachable state in which the PumpFun batch has room for one more event and the
message in hand, if there is one, can be handled, some continuation takes `main` to its return,
wherever the three threads are and however full the queue is. -/
theorem can_exit {actions : List (ProcessAction Buffer)}
    (reached : Execution.run (step getenv unpack) start actions = some process)
    (room : ∀ thread, process.writer = .live thread →
      thread.writer.pumpfunBatch.length < batchSize)
    (readable : ∀ thread, process.client = .live thread →
      thread.client.Readable thread.detector unpack) :
    Execution.CanReach (step getenv unpack) (fun final => ∃ success, final.point = .exited success)
      process := by
  refine Unblocked.exits ⟨⟨actions, reached⟩, fun thread live => ⟨room thread live, ?_⟩, readable⟩
  have empty := (no_swaps reached).2
  rw [raydiumBatch, live] at empty
  rw [show thread.writer.raydiumBatch = [] from empty]
  exact Nat.zero_lt_succ 99

/-- A process that is stopped while a trade waits to be pushed. -/
def stoppedTrade : List (ProcessAction Unit) :=
  (tradeRun (flushing true)).take 13 ++ [.signal, .main mainEnv, .main mainEnv]

/-- The batch has room, and the client holds no message. -/
def resting (process : Process Unit) : Bool :=
  (match process.writer with
    | .live thread => decide (thread.writer.pumpfunBatch.length < batchSize)
    | _ => true) &&
    match process.client with
    | .live thread =>
        match thread.client.thread with
        | .attempt _ (.handle _) => false
        | _ => true
    | _ => true

theorem can_exit_stoppedTrade :
    ∃ process, Execution.run (step onesOnly (always (tradedAt 7))) start stoppedTrade =
        some process ∧ process.outbox.length = 1 ∧
      Execution.CanReach (step onesOnly (always (tradedAt 7)))
        (fun final => ∃ success, final.point = .exited success) process := by
  have outcome : (Execution.run (step onesOnly (always (tradedAt 7))) start stoppedTrade).map
      (fun process => (process.outbox.length, resting process)) = some (1, true) := by
    rw [stoppedTrade, Execution.run_append, run_handled (handleTransaction_tradedAt 7)]
    decide +kernel
  obtain ⟨process, reached, facts⟩ := Option.map_eq_some_iff.mp outcome
  obtain ⟨waiting, rests⟩ := Prod.mk.inj facts
  rw [resting, Bool.and_eq_true] at rests
  refine ⟨process, reached, waiting, can_exit reached (fun thread live => ?_)
    (fun thread live call buffer update here => ?_)⟩
  · rw [live] at rests
    exact of_decide_eq_true rests.1
  · rw [live] at rests
    simp only [here] at rests
    cases rests.2

end Process

end YureiGeyser
