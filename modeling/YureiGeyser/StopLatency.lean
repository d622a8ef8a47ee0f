import YureiGeyser.EndToEnd
import YureiGeyser.Library.Progress

/-!
# How soon the threads end

Once its flag is cleared a thread has a bounded number of steps left, whatever the other threads,
the server and the database do; the client may still have to wait for the server.
-/

namespace YureiGeyser

variable {Buffer : Type}

/-! ## The client thread -/

/-- The number of batches without a completion. -/
def GrpcCall.load (call : GrpcCall Buffer) : ℕ :=
  (call.outstanding .handshake).toNat + (call.outstanding .status).toNat +
    (call.outstanding .receive).toNat

/-- A bound for the steps from a point to the end of the thread, the completions of other batches
apart; a message may bring an event to push. -/
def CallPoint.distance : CallPoint Buffer → ℕ
  | .next .status => 2
  | .take .status => 3
  | .loop => 4
  | .handle _ => 6
  | .next .handshake => 5
  | .next .receive => 6
  | .take .handshake => 6
  | .take .receive => 7
  | .receive => 9

/-- A bound for the steps to the end of the thread once its flag is cleared. -/
def GeyserThread.distance : GeyserThread Buffer → ℕ
  | .finished => 0
  | .returned _ => 1
  | .test => 1
  | .subscribe => 9
  | .attempt call point => point.distance + call.load

/-- The messages that are still handled from a point on once the flag is cleared. -/
def CallPoint.messages : CallPoint Buffer → ℕ
  | .receive => 1
  | .take .receive => 1
  | .next .receive => 1
  | .handle _ => 1
  | _ => 0

/-- The messages that the thread may still handle once its flag is cleared. -/
def GeyserThread.messages : GeyserThread Buffer → ℕ
  | .attempt _ point => point.messages
  | _ => 0

theorem GeyserThread.messages_le (thread : GeyserThread Buffer) : thread.messages ≤ 1 := by
  cases thread with
  | attempt call point =>
      cases point with
      | take tag | next tag => cases tag <;> simp [messages, CallPoint.messages]
      | _ => simp [messages, CallPoint.messages]
  | _ => exact Nat.zero_le 1

/-- The thread gets on: it is not the server that acts, and the completion queue has not timed
out. -/
def ClientAction.works : ClientAction Buffer → Bool
  | .stop => false
  | .serverEnds _ => false
  | .next .timeout _ => false
  | _ => true

theorem GrpcCall.load_complete {call : GrpcCall Buffer} (buffer : Option Buffer)
    {completion : Completion} (outstanding : call.outstanding completion.tag = true) :
    (call.complete buffer (.opComplete completion)).load + 1 = call.load := by
  obtain ⟨tag, success⟩ := completion
  cases tag <;> simp [load, complete, Function.update] <;> simp_all <;> omega

theorem GrpcCall.load_receiving_le (call : GrpcCall Buffer) :
    call.receiving.load ≤ call.load + 1 := by
  simp only [load, receiving, Function.update]
  cases call.outstanding .receive <;> simp

theorem GrpcCall.load_le (call : GrpcCall Buffer) : call.load ≤ 3 := by
  rw [load]
  have handshake := Bool.toNat_le (call.outstanding .handshake)
  have status := Bool.toNat_le (call.outstanding .status)
  have receive := Bool.toNat_le (call.outstanding .receive)
  omega

theorem GeyserThread.distance_le (thread : GeyserThread Buffer) : thread.distance ≤ 12 := by
  cases thread with
  | attempt call point =>
      have load := call.load_le
      rw [distance]
      cases point with
      | take tag => cases tag <;> simp only [CallPoint.distance] <;> omega
      | next tag => cases tag <;> simp only [CallPoint.distance] <;> omega
      | _ =>
          simp only [CallPoint.distance]
          omega
  | _ => simp [distance]

namespace Client

variable {detector : ProtocolDetector} {unpack : Buffer → Option SubscribeUpdate}
  {client next : Client Buffer} {action : ClientAction Buffer}

/-- A wait is never the end of the distance, also when the batch has completed before. -/
theorem distance_afterWait (client : Client Buffer) (call : GrpcCall Buffer) (tag : Tag)
    (success : Bool) :
    (client.afterWait call tag success).thread.distance + 1 ≤
      (CallPoint.take tag : CallPoint Buffer).distance + call.load := by
  have resumed := resumes_afterWait client call tag success
  generalize client.afterWait call tag success = after at resumed ⊢
  cases resumed <;> simp only [GeyserThread.distance, CallPoint.distance] <;> omega

theorem distance_of_step (stopped : client.running = false)
    (taken : client.step detector unpack action = some next) :
    next.dispatched.length + next.thread.distance + action.works.toNat ≤
      client.dispatched.length + client.thread.distance := by
  cases steps_of_step taken with
  | stop | timeout => exact le_rfl
  | ends details here live =>
      rw [here]
      exact le_rfl
  | test here =>
      rw [here, stopped]
      exact le_rfl
  | @cached call tag completion cache here found =>
      have shorter := client.distance_afterWait { call with eventCache := cache } tag
        completion.success
      rw [here, dispatched_of_afterWait]
      exact Nat.add_le_add_left shorter _
  | @uncached call tag here nothing =>
      rw [here]
      simp only [ClientAction.works, Bool.toNat_true, GeyserThread.distance]
      cases tag <;> simp only [CallPoint.distance] <;> omega
  | loop here =>
      rw [here, stopped]
      simp only [ClientAction.works, Bool.toNat_true, GeyserThread.distance, CallPoint.distance,
        Bool.false_eq_true, if_false]
      omega
  | leave here =>
      rw [here]
      exact le_rfl
  | sleep here running =>
      rw [stopped] at running
      cases running
  | subscribed here built =>
      have load : (GrpcCall.fresh : GrpcCall Buffer).load = 2 := rfl
      rw [here]
      simp only [ClientAction.works, Bool.toNat_true, GeyserThread.distance, CallPoint.distance,
        load]
      omega
  | unsubscribed here =>
      rw [here]
      simp only [ClientAction.works, Bool.toNat_true, GeyserThread.distance]
      omega
  | refused here =>
      rw [here]
      simp only [ClientAction.works, Bool.toNat_true, GeyserThread.distance, CallPoint.distance]
      omega
  | @receiving call here =>
      have load := call.load_receiving_le
      rw [here]
      simp only [ClientAction.works, Bool.toNat_true, GeyserThread.distance, CallPoint.distance]
      omega
  | @parked call tag completion buffer here permitted other =>
      rw [GrpcCall.Permits, Bool.and_eq_true] at permitted
      have load := GrpcCall.load_complete buffer permitted.1
      rw [here]
      simp only [ClientAction.works, Bool.toNat_true, GeyserThread.distance]
      simp only [GrpcCall.load] at load ⊢
      omega
  | @found call completion buffer here permitted =>
      rw [GrpcCall.Permits, Bool.and_eq_true] at permitted
      have load := GrpcCall.load_complete buffer permitted.1
      have shorter := client.distance_afterWait (call.complete buffer (.opComplete completion))
        completion.tag completion.success
      have looked : (CallPoint.take completion.tag : CallPoint Buffer).distance =
          (CallPoint.next completion.tag : CallPoint Buffer).distance + 1 := by
        cases completion.tag <;> rfl
      rw [here, dispatched_of_afterWait]
      change _ + 1 ≤ client.dispatched.length + (CallPoint.distance _ + call.load)
      omega
  | @handled call buffer update calloc events here message ingested =>
      have few := dispatched_length_le taken
      rw [List.drop_left] at few
      rw [here, List.length_append]
      simp only [ClientAction.works, Bool.toNat_true, GeyserThread.distance, CallPoint.distance]
      omega
  | passed calloc here =>
      rw [here]
      simp only [ClientAction.works, Bool.toNat_true, GeyserThread.distance, CallPoint.distance]
      omega

theorem messages_afterWait (client : Client Buffer) (call : GrpcCall Buffer) (tag : Tag)
    (success : Bool) :
    (client.afterWait call tag success).thread.messages ≤
      (GeyserThread.attempt call (.next tag)).messages := by
  have resumed := resumes_afterWait client call tag success
  generalize client.afterWait call tag success = after at resumed ⊢
  cases resumed <;> simp [GeyserThread.messages, CallPoint.messages]

/-- A stopped thread handles one more message at most, and a message leads to one event at most. -/
theorem messages_of_step (stopped : client.running = false)
    (taken : client.step detector unpack action = some next) :
    next.dispatched.length + next.thread.messages ≤
      client.dispatched.length + client.thread.messages := by
  cases steps_of_step taken with
  | stop | timeout => exact le_rfl
  | @ends call point details here live =>
      rw [here]
      exact le_rfl
  | test here =>
      rw [here, stopped]
      exact le_rfl
  | @cached call tag completion cache here found =>
      have fewer := client.messages_afterWait { call with eventCache := cache } tag
        completion.success
      rw [here, dispatched_of_afterWait]
      cases tag <;> exact Nat.add_le_add_left fewer _
  | @uncached call tag here nothing =>
      rw [here]
      cases tag <;> exact le_rfl
  | loop here =>
      rw [here, stopped]
      exact le_rfl
  | leave here | subscribed here | unsubscribed here | receiving here =>
      rw [here]
      exact le_rfl
  | refused here =>
      rw [here]
      exact Nat.le_succ _
  | sleep here running =>
      rw [stopped] at running
      cases running
  | @parked call tag completion buffer here =>
      rw [here]
      cases tag <;> exact le_rfl
  | @found call completion buffer here permitted =>
      have fewer := client.messages_afterWait (call.complete buffer (.opComplete completion))
        completion.tag completion.success
      rw [here, dispatched_of_afterWait]
      refine Nat.add_le_add_left (fewer.trans ?_) _
      obtain ⟨tag, success⟩ := completion
      cases tag <;> exact le_rfl
  | @handled call buffer update calloc events here message ingested =>
      have few := dispatched_length_le taken
      rw [List.drop_left] at few
      rw [here, List.length_append]
      exact Nat.add_le_add_left few _
  | passed calloc here =>
      rw [here]
      exact Nat.le_succ _

end Client

namespace ClientThread

variable {unpack : Buffer → Option SubscribeUpdate} {thread after : ClientThread Buffer}
  {action : ClientAction Buffer}

/-- An event waits for its push only at the head of the receive loop. -/
def Halts (thread : ClientThread Buffer) : Prop :=
  thread.outbox = [] ∨ ∃ call, thread.client.thread = .attempt call .loop

theorem Halts.step (halts : thread.Halts) (taken : thread.step unpack action = some after) :
    after.Halts := by
  obtain ⟨goes, stepped⟩ := Option.ite_none_right_eq_some.mp taken
  obtain ⟨client, went, rfl⟩ := Option.map_eq_some_iff.mp stepped
  rw [Bool.or_eq_true, List.isEmpty_iff] at goes
  have pushed : ∀ next : Client Buffer, action.external = false →
      next.dispatched = thread.client.dispatched →
        thread.outbox ++ next.dispatched.drop thread.client.dispatched.length = [] := by
    intro next own same
    rw [goes.resolve_right (by rw [own]; exact Bool.false_ne_true), same, List.drop_length]
    rfl
  cases Client.steps_of_step went with
  | @ends call point details here live =>
      rcases halts with empty | ⟨other, loop⟩
      · left
        change thread.outbox ++ List.drop _ _ = []
        rw [empty, List.drop_length]
        rfl
      · rw [here] at loop
        cases loop
        exact .inr ⟨_, rfl⟩
  | @handled call => exact .inr ⟨call, rfl⟩
  | cached | found => exact .inl (pushed _ rfl (Client.dispatched_of_afterWait _ _ _ _))
  | _ => exact .inl (pushed _ rfl rfl)

/-- A bound for the steps and pushes to the end of the thread once its flag is cleared. -/
def distance (thread : ClientThread Buffer) : ℕ :=
  thread.client.thread.distance + thread.outbox.length

theorem distance_of_step (stopped : thread.client.running = false)
    (taken : thread.step unpack action = some after) :
    after.distance + action.works.toNat ≤ thread.distance := by
  obtain ⟨events, dispatched, outbox⟩ := sent_of_step taken
  obtain ⟨-, stepped⟩ := Option.ite_none_right_eq_some.mp taken
  obtain ⟨client, went, rfl⟩ := Option.map_eq_some_iff.mp stepped
  have shorter := Client.distance_of_step stopped went
  change client.dispatched = _ at dispatched
  rw [dispatched, List.length_append] at shorter
  rw [distance, distance, outbox, List.length_append]
  change client.thread.distance + _ + _ ≤ _
  omega

theorem Halts.distance_le (halts : thread.Halts) (waits : thread.outbox.length ≤ 1) :
    thread.distance ≤ 12 := by
  rw [distance]
  rcases halts with empty | ⟨call, loop⟩
  · rw [empty]
    exact thread.client.thread.distance_le
  · have load := call.load_le
    rw [loop, GeyserThread.distance, CallPoint.distance]
    omega

end ClientThread

/-! ## The process -/

/-- `geyser_client_stop` has cleared the flag of the client, if there is one. -/
def MainPoint.pastStop : MainPoint → Bool
  | .joinClient => true
  | .stopWriter _ => true
  | .closeQueue _ => true
  | .joinWriter _ => true
  | .destroy _ => true
  | .exited _ => true
  | _ => false

/-- The client thread gets on. -/
def ProcessAction.clientWorks : ProcessAction Buffer → Bool
  | .client action => action.works
  | .push => true
  | _ => false

namespace Process

variable {getenv : String → Option CString} {unpack : Buffer → Option SubscribeUpdate}
  {process next final : Process Buffer} {action : ProcessAction Buffer}
  {actions more : List (ProcessAction Buffer)}

/-- A bound for the steps to the end of the client thread. -/
def clientDistance (process : Process Buffer) : ℕ :=
  match process.client with
  | .live thread => thread.distance
  | _ => 0

/-- The events that the client may still dispatch after its flag is cleared. -/
def clientMessages (process : Process Buffer) : ℕ :=
  match process.client with
  | .live thread => thread.client.thread.messages
  | _ => 0

theorem Tidy.stopped (tidy : process.Tidy) (past : process.point.pastStop = true)
    {thread : ClientThread Buffer} (live : process.client = .live thread) :
    thread.client.running = false := by
  rw [Tidy, live] at tidy
  obtain ⟨ring, loop, serves, -, -, -, -, stopped⟩ := tidy.serves_of_client
  cases here : process.point with
  | joinClient => exact stopped here
  | _ => simp [here, MainPoint.pastStop, MainPoint.serves] at past serves

theorem pastStop_step (past : process.point.pastStop = true)
    (went : process.step getenv unpack action = some next) : next.point.pastStop = true := by
  obtain ⟨point, signalled, queue, metrics, writer, client, accepted, refused⟩ := process
  cases steps_of_step went with
  | rejected here | loaded here | created here | uncreated here | writerStarted here
  | writerFailed here | clientStarted here | clientFailed here | waits here | clientStopped here =>
      cases here
      cases past
  | clientJoined | writerStopped | queueClosed | writerJoined | destroyed => rfl
  | signal | client | push | writer | pop => exact past

theorem clientDistance_step (tidy : process.Tidy) (past : process.point.pastStop = true)
    (went : process.step getenv unpack action = some next) :
    next.clientDistance + action.clientWorks.toNat ≤ process.clientDistance := by
  have stopped := @Tidy.stopped _ _ tidy past
  obtain ⟨point, signalled, queue, metrics, writer, client, accepted, refused⟩ := process
  cases steps_of_step went with
  | clientStarted here | clientStopped here =>
      cases here
      cases past
  | clientJoined here live finished flushed =>
      cases live
      exact Nat.zero_le _
  | client live other stepped =>
      cases live
      exact ClientThread.distance_of_step (stopped rfl) stepped
  | push live ring waiting ran =>
      cases live
      simp only [clientDistance, ClientThread.distance, waiting, List.length_cons]
      exact le_rfl
  | _ => exact le_rfl

/-- The client, if it is live, waits for a push only at the head of its loop. -/
def Halting (process : Process Buffer) : Prop :=
  ∀ thread, process.client = .live thread → thread.Halts

theorem start_halting : (start : Process Buffer).Halting := by
  rintro thread ⟨⟩

theorem halting_step (halting : process.Halting)
    (went : process.step getenv unpack action = some next) : next.Halting := by
  obtain ⟨point, signalled, queue, metrics, writer, client, accepted, refused⟩ := process
  cases steps_of_step went with
  | clientStarted here =>
      rintro thread ⟨⟩
      exact .inl rfl
  | @clientStopped _ stopped here live =>
      rintro thread ⟨⟩
      exact halting stopped live
  | clientJoined =>
      intro thread live
      cases live
  | client live other stepped =>
      rintro thread ⟨⟩
      exact (halting _ live).step stepped
  | push live ring waiting ran =>
      rintro thread ⟨⟩
      rcases halting _ live with empty | loop
      · rw [empty] at waiting
        cases waiting
      · exact .inr loop
  | _ => exact halting

theorem clientDistance_le (halting : process.Halting) (waits : process.outbox.length ≤ 1) :
    process.clientDistance ≤ 12 := by
  rw [clientDistance]
  split
  · next thread live =>
      rw [outbox, live] at waits
      exact (halting thread live).distance_le waits
  · exact Nat.zero_le 12

theorem dispatched_step (tidy : process.Tidy) (past : process.point.pastStop = true)
    (went : process.step getenv unpack action = some next) :
    next.dispatched.length + next.clientMessages ≤
      process.dispatched.length + process.clientMessages := by
  have stopped := @Tidy.stopped _ _ tidy past
  obtain ⟨point, signalled, queue, metrics, writer, client, accepted, refused⟩ := process
  cases steps_of_step went with
  | clientStarted here | clientStopped here =>
      cases here
      cases past
  | clientJoined here live finished flushed =>
      cases live
      exact Nat.add_le_add_left (Nat.zero_le _) _
  | client live other stepped =>
      cases live
      obtain ⟨-, ran⟩ := Option.ite_none_right_eq_some.mp stepped
      obtain ⟨after, taken, rfl⟩ := Option.map_eq_some_iff.mp ran
      exact Client.messages_of_step (stopped rfl) taken
  | push live ring waiting ran =>
      cases live
      exact le_rfl
  | _ => exact le_rfl

/-- Once its flag is cleared the client thread takes at most twelve more steps, those of its pushes
included and the timeouts of the completion queue apart, and it dispatches at most one more event;
this holds in every run, whatever the server and the other threads do. -/
theorem client_ends_soon
    (reached : Execution.run (step getenv unpack) start actions = some process)
    (past : process.point.pastStop = true)
    (continued : Execution.run (step getenv unpack) process more = some final) :
    more.countP ProcessAction.clientWorks ≤ 12 ∧
      final.dispatched.length ≤ process.dispatched.length + 1 := by
  have kept : ∀ (before : Process Buffer) (action : ProcessAction Buffer) (after : Process Buffer),
      before.Tidy ∧ before.point.pastStop = true → before.step getenv unpack action = some after →
        after.Tidy ∧ after.point.pastStop = true := by
    rintro before action after ⟨tidy, past⟩ went
    exact ⟨tidy_step tidy went, pastStop_step past went⟩
  have initially : process.Tidy ∧ process.point.pastStop = true := ⟨tidy_run reached, past⟩
  constructor
  · have bound : more.countP ProcessAction.clientWorks + final.clientDistance ≤
        process.clientDistance :=
      Execution.countP_le_rank kept
        (fun before action after held went => clientDistance_step held.1 held.2 went) initially
        continued
    have halting : process.Halting :=
      Execution.run_invariant (fun _ _ _ => halting_step) start_halting reached
    have near := clientDistance_le halting (sound_run reached).waits
    omega
  · have fewer := Execution.le_of_run
      (fun process : Process Buffer => process.dispatched.length + process.clientMessages) kept
      (fun before action after held went => dispatched_step held.1 held.2 went) initially continued
    have one : process.clientMessages ≤ 1 := by
      rw [clientMessages]
      split
      · exact GeyserThread.messages_le _
      · exact Nat.zero_le 1
    omega

/-- A process that is stopped while its client is about to subscribe. -/
def lateSignal : List (ProcessAction Unit) :=
  [.main mainEnv, .main mainEnv, .main mainEnv, .main mainEnv, .client .advance, .signal,
    .main mainEnv, .main mainEnv]

/-- The subscription is established and ended by the server. -/
def lastSubscription : List (ProcessAction Unit) :=
  [.client (.subscribe ⟨true, true, true⟩ true), .client .advance,
    .client (.next (.opComplete ⟨.handshake, true⟩) none), .client .advance, .client .advance,
    .client (.next .timeout none), .client (.serverEnds []),
    .client (.next (.opComplete ⟨.status, true⟩) none), .client .advance, .main mainEnv,
    .main mainEnv]

/-- What is left to `main` and to the writer. -/
def lastFlush : List (ProcessAction Unit) :=
  [.main mainEnv, .writer .test, .writer (.finish Shutdown.healthyFlushAll), .main mainEnv,
    .main mainEnv]

theorem client_ends_soon_subscribed :
    ∃ process final, Execution.run (step (fun _ => none) fun _ => some .other) start lateSignal =
        some process ∧ process.point.pastStop = true ∧
      Execution.run (step (fun _ => none) fun _ => some .other) process lastSubscription =
        some final ∧
      lastSubscription.countP ProcessAction.clientWorks ≤ 12 ∧
        final.dispatched.length ≤ process.dispatched.length + 1 := by
  have whole : (Execution.run (step (fun _ => none) fun _ => some .other) start
      (lateSignal ++ lastSubscription)).isSome = true := by
    decide +kernel
  have past : (Execution.run (step (fun _ => none) fun _ => some .other) start lateSignal).map
      (fun process => process.point.pastStop) = some true := by
    decide +kernel
  obtain ⟨final, execution⟩ := Option.isSome_iff_exists.mp whole
  obtain ⟨process, reached, continued⟩ := Execution.run_append_eq_some.mp execution
  rw [reached] at past
  have stopped : process.point.pastStop = true := Option.some.inj past
  exact ⟨process, final, reached, stopped, continued, client_ends_soon reached stopped continued⟩

end Process

/-! ## The end of the process -/

/-- `db_writer_stop` has cleared the flag of the writer, if there is one. -/
def MainPoint.closing : MainPoint → Bool
  | .closeQueue _ => true
  | .joinWriter _ => true
  | .destroy _ => true
  | .exited _ => true
  | _ => false

/-- The steps from a point to the end of `main`. -/
def MainPoint.distance : MainPoint → ℕ
  | .closeQueue _ => 3
  | .joinWriter _ => 2
  | .destroy _ => 1
  | _ => 0

/-- The steps of the writer thread once its flag is cleared. -/
def WriterPc.distance : WriterPc → ℕ
  | .pop => 4
  | .handle _ => 3
  | .test => 2
  | .finish => 1
  | .returned => 0

/-- The pops of the writer thread once its flag is cleared. -/
def WriterPc.pops : WriterPc → ℕ
  | .pop => 1
  | _ => 0

/-- A thread gets on. -/
def ProcessAction.works : ProcessAction Buffer → Bool
  | .signal => false
  | _ => true

theorem WriterThread.distance_of_step {thread after : WriterThread} {action : WriterAction}
    (stopped : thread.running = false) (went : thread.step action = some after) :
    after.pc.distance + 1 = thread.pc.distance := by
  cases action with
  | test =>
      obtain ⟨here, ⟨⟩⟩ := Option.ite_none_right_eq_some.mp went
      rw [here, stopped]
      rfl
  | handle env =>
      rw [step] at went
      split at went
      · next popped here =>
          obtain ⟨writer, -, rfl⟩ := Option.map_eq_some_iff.mp went
          rw [here]
          rfl
      · cases went
  | finish env =>
      obtain ⟨here, finished⟩ := Option.ite_none_right_eq_some.mp went
      obtain ⟨writer, -, rfl⟩ := Option.map_eq_some_iff.mp finished
      rw [here]
      rfl

theorem WriterThread.pops_of_step {thread after : WriterThread} {action : WriterAction}
    (stopped : thread.running = false) (went : thread.step action = some after) :
    after.pc.pops = 0 := by
  cases action with
  | test =>
      obtain ⟨here, ⟨⟩⟩ := Option.ite_none_right_eq_some.mp went
      rw [stopped]
      rfl
  | handle env =>
      rw [step] at went
      split at went
      · obtain ⟨writer, -, rfl⟩ := Option.map_eq_some_iff.mp went
        rfl
      · cases went
  | finish env =>
      obtain ⟨here, finished⟩ := Option.ite_none_right_eq_some.mp went
      obtain ⟨writer, -, rfl⟩ := Option.map_eq_some_iff.mp finished
      rfl

/-- While the process closes, the client is gone and the writer is stopped. -/
theorem Owns.closed {point : MainPoint} {queue : Object Queue} {writer : Object WriterThread}
    {client : Object (ClientThread Buffer)} (owns : Owns point queue writer client)
    (closing : point.closing = true) :
    (∀ thread, client ≠ .live thread) ∧
      ∀ thread, writer = .live thread → thread.running = false := by
  cases owns with
  | load | create | startWriter | startClient | stopWriter => cases closing
  | @serving point queue writer client serves =>
      cases point <;> simp [MainPoint.serves, MainPoint.closing] at serves closing
  | closeQueue stopped ended | joinWriter stopped ended =>
      refine ⟨?_, ?_⟩
      · rintro thread rfl
        exact ended.elim
      · rintro thread live
        cases live
        exact stopped
  | destroy joined ended =>
      refine ⟨?_, ?_⟩
      · rintro thread rfl
        exact ended.elim
      · rintro thread rfl
        exact joined.elim
  | exited destroyed joined ended =>
      refine ⟨?_, ?_⟩
      · rintro thread rfl
        exact ended.elim
      · rintro thread rfl
        exact joined.elim

namespace Process

variable {getenv : String → Option CString} {unpack : Buffer → Option SubscribeUpdate}
  {process next final : Process Buffer} {action : ProcessAction Buffer}
  {actions more : List (ProcessAction Buffer)}

/-- A bound for the steps of a closing process. -/
def closingDistance (process : Process Buffer) : ℕ :=
  process.point.distance +
    match process.writer with
    | .live thread => thread.pc.distance
    | _ => 0

/-- The pops of a closing process. -/
def closingPops (process : Process Buffer) : ℕ :=
  match process.writer with
  | .live thread => thread.pc.pops
  | _ => 0

theorem closingDistance_le (process : Process Buffer) : process.closingDistance ≤ 7 := by
  have point : process.point.distance ≤ 3 := by
    cases process.point <;> simp [MainPoint.distance]
  have pc : ∀ pc : WriterPc, pc.distance ≤ 4 := by
    intro pc
    cases pc <;> simp [WriterPc.distance]
  rw [closingDistance]
  split
  · next thread live => exact Nat.add_le_add point (pc thread.pc)
  · exact point.trans (by decide)

theorem closingPops_le (process : Process Buffer) : process.closingPops ≤ 1 := by
  rw [closingPops]
  split
  · next thread live => cases thread.pc <;> simp [WriterPc.pops]
  · exact Nat.zero_le 1

theorem closing_step (closing : process.point.closing = true)
    (went : process.step getenv unpack action = some next) : next.point.closing = true := by
  obtain ⟨point, signalled, queue, metrics, writer, client, accepted, refused⟩ := process
  cases steps_of_step went with
  | rejected here | loaded here | created here | uncreated here | writerStarted here
  | writerFailed here | clientStarted here | clientFailed here | waits here | clientStopped here
  | clientJoined here =>
      cases here
      cases closing
  | writerStopped | queueClosed | writerJoined | destroyed => rfl
  | signal | client | push | writer | pop => exact closing

theorem closingDistance_step (tidy : process.Tidy) (closing : process.point.closing = true)
    (went : process.step getenv unpack action = some next) :
    next.closingDistance + action.works.toNat ≤ process.closingDistance ∧
      next.taken.length + next.closingPops ≤ process.taken.length + process.closingPops := by
  obtain ⟨gone, stopped⟩ := Owns.closed tidy closing
  obtain ⟨point, signalled, queue, metrics, writer, client, accepted, refused⟩ := process
  cases steps_of_step went with
  | rejected here | loaded here | created here | uncreated here | writerStarted here
  | writerFailed here | clientStarted here | clientFailed here | waits here | clientStopped here
  | clientJoined here | writerStopped here =>
      cases here
      cases closing
  | queueClosed here ring =>
      cases here
      refine ⟨?_, le_rfl⟩
      simp only [closingDistance, MainPoint.distance, ProcessAction.works, Bool.toNat_true]
      omega
  | writerJoined here live returned =>
      cases here
      cases live
      refine ⟨?_, Nat.le_add_right _ _⟩
      simp only [closingDistance, MainPoint.distance, ProcessAction.works, Bool.toNat_true]
      omega
  | destroyed here ring =>
      cases here
      refine ⟨?_, le_rfl⟩
      simp only [closingDistance, MainPoint.distance, ProcessAction.works, Bool.toNat_true]
      omega
  | signal => exact ⟨le_rfl, le_rfl⟩
  | client live => exact absurd live (gone _)
  | push live => exact absurd live (gone _)
  | writer live stepped =>
      cases live
      have less := WriterThread.distance_of_step (stopped _ rfl) stepped
      refine ⟨?_, ?_⟩
      · simp only [closingDistance, ProcessAction.works, Bool.toNat_true]
        omega
      · simp only [taken, closingPops, Object.last?, Option.elim_some]
        rw [WriterThread.taken_of_step stepped, WriterThread.pops_of_step (stopped _ rfl) stepped]
        exact Nat.le_add_right _ _
  | @pop thread queue after result metrics live ring pc ran =>
      cases live
      refine ⟨?_, ?_⟩
      · simp only [closingDistance, ProcessAction.works, Bool.toNat_true, pc, WriterPc.distance]
        omega
      · simp only [taken, closingPops, Object.last?, Option.elim_some, WriterThread.taken, pc,
          WriterPc.pops, WriterPc.inFlight, List.length_append]
        cases result <;> simp

/-- Once `db_writer_stop` has cleared the flag of the writer, the process takes at most seven more
steps, apart from signals, and the writer pops at most one more event; this holds in every run,
whatever the database does. -/
theorem writer_ends_soon
    (reached : Execution.run (step getenv unpack) start actions = some process)
    (closing : process.point.closing = true)
    (continued : Execution.run (step getenv unpack) process more = some final) :
    more.countP ProcessAction.works ≤ 7 ∧ final.taken.length ≤ process.taken.length + 1 := by
  have kept : ∀ (before : Process Buffer) (action : ProcessAction Buffer) (after : Process Buffer),
      before.Tidy ∧ before.point.closing = true → before.step getenv unpack action = some after →
        after.Tidy ∧ after.point.closing = true := by
    rintro before action after ⟨tidy, closing⟩ went
    exact ⟨tidy_step tidy went, closing_step closing went⟩
  have initially : process.Tidy ∧ process.point.closing = true := ⟨tidy_run reached, closing⟩
  constructor
  · have bound : more.countP ProcessAction.works + final.closingDistance ≤
        process.closingDistance :=
      Execution.countP_le_rank kept
        (fun before action after held went => (closingDistance_step held.1 held.2 went).1) initially
        continued
    have near := process.closingDistance_le
    omega
  · have fewer := Execution.le_of_run
      (fun process : Process Buffer => process.taken.length + process.closingPops) kept
      (fun before action after held went => (closingDistance_step held.1 held.2 went).2) initially
      continued
    have one := process.closingPops_le
    omega

theorem writer_ends_soon_subscribed :
    ∃ process final, Execution.run (step (fun _ => none) fun _ => some .other) start
        (lateSignal ++ lastSubscription) = some process ∧ process.point.closing = true ∧
      Execution.run (step (fun _ => none) fun _ => some .other) process lastFlush = some final ∧
      lastFlush.countP ProcessAction.works ≤ 7 ∧
        final.taken.length ≤ process.taken.length + 1 := by
  have whole : (Execution.run (step (fun _ => none) fun _ => some .other) start
      ((lateSignal ++ lastSubscription) ++ lastFlush)).isSome = true := by
    decide +kernel
  have past : (Execution.run (step (fun _ => none) fun _ => some .other) start
      (lateSignal ++ lastSubscription)).map (fun process => process.point.closing) = some true := by
    decide +kernel
  obtain ⟨final, execution⟩ := Option.isSome_iff_exists.mp whole
  obtain ⟨process, reached, continued⟩ := Execution.run_append_eq_some.mp execution
  rw [reached] at past
  have closing : process.point.closing = true := Option.some.inj past
  exact ⟨process, final, reached, closing, continued, writer_ends_soon reached closing continued⟩

end Process

end YureiGeyser
