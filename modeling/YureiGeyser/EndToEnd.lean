import YureiGeyser.Provenance

/-!
# From the messages to the rows

What the client dispatches goes through the queue and the writer in order: at every moment it is
what the writer has taken, what the queue holds and what the client still has to push.  Nothing is
refused, since the queue is closed behind the client only.
-/

namespace YureiGeyser

variable {Buffer : Type}

/-! ## What the writer takes -/

namespace WriterThread

/-- The events that the thread has taken from the queue. -/
def taken (thread : WriterThread) : List Event :=
  poppedEvents thread.writer.trace ++ thread.pc.inFlight

/-- Apart from its pop the thread takes nothing. -/
theorem taken_of_step {thread after : WriterThread} {action : WriterAction}
    (went : thread.step action = some after) : after.taken = thread.taken := by
  obtain ⟨writer, pc, running⟩ := thread
  cases action with
  | test =>
      obtain ⟨here, ⟨⟩⟩ := Option.ite_none_right_eq_some.mp went
      cases here
      cases running <;> rfl
  | handle env =>
      rw [step] at went
      split at went
      · next popped here =>
          obtain ⟨next, iterated, rfl⟩ := Option.map_eq_some_iff.mp went
          cases here
          rw [taken, iteration_popped (toOption_eq_some.mp iterated)]
          exact List.append_nil _
      · cases went
  | finish env =>
      obtain ⟨here, finished⟩ := Option.ite_none_right_eq_some.mp went
      obtain ⟨next, flushed, rfl⟩ := Option.map_eq_some_iff.mp finished
      cases here
      have popped := flushAllBatches_preserves (popped_preserved (poppedEvents writer.trace))
        trivial trivial rfl (toOption_eq_some.mp flushed)
      rw [taken, taken, popped]
      rfl

end WriterThread

namespace Queue

/-- The ring is sound. -/
def Rings (queue : Queue) : Prop :=
  ∃ (capacity : ℕ) (channel : Channel Event capacity), queue.Represents channel

variable {queue after : Queue} {metrics metrics' : Metrics}

/-- An open queue accepts what it has room for. -/
theorem Rings.push (rings : queue.Rings) (opened : queue.closed = false) {event : Event} {ok : Bool}
    (ran : eventQueuePush event queue metrics = some (ok, after, metrics')) :
    ok = true ∧ after.contents = queue.contents ++ [event] ∧ after.Rings := by
  obtain ⟨capacity, channel, represents⟩ := rings
  obtain ⟨next, abstract, represents'⟩ :=
    exists_abstract (eventQueuePush_refines represents event metrics) ran
  rcases Channel.push_eq_some abstract with ⟨accepted, -, items, -⟩ | ⟨-, closed, -⟩
  · refine ⟨accepted, ?_, capacity, next, represents'⟩
    rw [represents'.contents_eq, items, represents.contents_eq]
  · rw [represents.closed_eq, closed] at opened
    cases opened

/-- What a pop returns was at the head. -/
theorem Rings.pop (rings : queue.Rings) {block : Bool} {result : Option Event}
    (ran : eventQueuePop block queue metrics = some (result, after, metrics')) :
    queue.contents = result.toList ++ after.contents ∧ after.Rings := by
  obtain ⟨capacity, channel, represents⟩ := rings
  obtain ⟨next, abstract, represents'⟩ :=
    exists_abstract (eventQueuePop_refines represents block metrics) ran
  refine ⟨?_, capacity, next, represents'⟩
  rw [represents.contents_eq, represents'.contents_eq]
  rcases Channel.pop_eq_some abstract with ⟨event, rfl, items, -⟩ | ⟨rfl, -, -, rfl⟩
  · exact items
  · rfl

theorem capacity_of_push {event : Event} {ok : Bool}
    (ran : eventQueuePush event queue metrics = some (ok, after, metrics')) :
    after.capacity = queue.capacity := by
  rw [eventQueuePush] at ran
  split at ran
  · cases ran
  · split at ran <;> cases ran <;> rfl

theorem capacity_of_pop {block : Bool} {result : Option Event}
    (ran : eventQueuePop block queue metrics = some (result, after, metrics')) :
    after.capacity = queue.capacity := by
  rw [eventQueuePop] at ran
  split at ran
  · split at ran <;> cases ran
    rfl
  · split at ran <;> cases ran <;> rfl

/-- A sound ring holds no more than its capacity. -/
theorem Rings.length_le (rings : queue.Rings) : queue.contents.length ≤ queue.capacity := by
  obtain ⟨capacity, channel, represents⟩ := rings
  rw [represents.contents_eq, ← represents.size_eq, represents.capacity_eq]
  exact represents.size_le

end Queue

theorem queueCapacity_of_load {memory : ConfigMemory} {getenv : String → Option CString}
    {config : LoadedConfig} (loaded : yureiConfigLoad memory getenv = some config) :
    config.queueCapacity = loadCapacity (getenv "YUREI_QUEUE_CAPACITY") := by
  obtain ⟨pumpfun, -, rest⟩ := Option.bind_eq_some_iff.mp loaded
  obtain ⟨raydium, -, built⟩ := Option.bind_eq_some_iff.mp rest
  cases built
  rfl

/-! ## The whole way -/

/-- The configuration that `main` still needs. -/
def MainPoint.config? : MainPoint → Option LoadedConfig
  | .create config => some config
  | .startWriter config => some config
  | .startClient config => some config
  | _ => none

namespace Process

/-- The events that the client has dispatched. -/
def dispatched (process : Process Buffer) : List Event :=
  process.client.last?.elim [] fun thread => thread.client.dispatched

/-- The events that the client has still to push. -/
def outbox (process : Process Buffer) : List Event :=
  process.client.last?.elim [] ClientThread.outbox

/-- The messages that gRPC has handed over. -/
def received (process : Process Buffer) : List Buffer :=
  process.client.last?.elim [] ClientThread.received

/-- The events in the queue. -/
def contents (process : Process Buffer) : List Event :=
  process.queue.last?.elim [] Queue.contents

/-- The events that the writer has taken from the queue. -/
def taken (process : Process Buffer) : List Event :=
  process.writer.last?.elim [] WriterThread.taken

/-- Where the dispatched events are. -/
structure Flows (process : Process Buffer) : Prop where
  tidy : process.Tidy
  sent : process.dispatched = process.accepted ++ process.outbox
  refused : process.refused = []
  moved : process.accepted = process.taken ++ process.contents
  rings : ∀ queue, process.queue.last? = some queue → queue.Rings

theorem start_flows : (start : Process Buffer).Flows where
  tidy := start_tidy
  sent := rfl
  refused := rfl
  moved := rfl
  rings := nofun

variable {getenv : String → Option CString} {unpack : Buffer → Option SubscribeUpdate}
  {process next : Process Buffer} {action : ProcessAction Buffer}

theorem flows_step (flows : process.Flows) (went : process.step getenv unpack action = some next) :
    next.Flows := by
  have tidy := tidy_step flows.tidy went
  obtain ⟨point, signalled, queue, metrics, writer, client, accepted, refused⟩ := process
  obtain ⟨owns, sent, none_refused, moved, rings⟩ := flows
  cases steps_of_step went with
  | rejected | loaded | uncreated | writerFailed | clientFailed | waits | signal =>
      exact ⟨tidy, sent, none_refused, moved, rings⟩
  | @created env config here =>
      cases here
      cases owns with
      | create =>
          refine ⟨tidy, sent, none_refused, moved, fun queue live => ?_⟩
          cases live
          have positive : 0 < config.queueCapacity.toNat := by
            have large := UInt64.le_iff_toNat_le.mp config.capacity_ge
            exact lt_of_lt_of_le (by decide) large
          exact ⟨_, _, Queue.eventQueueCreate_represents positive⟩
      | serving serves => cases serves
  | writerStarted here =>
      cases here
      cases owns with
      | startWriter => exact ⟨tidy, sent, none_refused, moved, rings⟩
      | serving serves => cases serves
  | clientStarted here =>
      cases here
      cases owns with
      | startClient => exact ⟨tidy, sent, none_refused, moved, rings⟩
      | serving serves => cases serves
  | clientStopped here live =>
      cases live
      exact ⟨tidy, sent, none_refused, moved, rings⟩
  | clientJoined here live finished flushed =>
      cases live
      exact ⟨tidy, sent, none_refused, moved, rings⟩
  | writerStopped here live =>
      cases live
      exact ⟨tidy, sent, none_refused, moved, rings⟩
  | writerJoined here live returned =>
      cases live
      exact ⟨tidy, sent, none_refused, moved, rings⟩
  | queueClosed here ring =>
      cases ring
      refine ⟨tidy, sent, none_refused, moved, fun queue live => ?_⟩
      cases live
      obtain ⟨capacity, channel, represents⟩ := rings _ rfl
      exact ⟨capacity, channel.close, Queue.eventQueueClose_represents represents⟩
  | destroyed here ring =>
      cases ring
      exact ⟨tidy, sent, none_refused, moved, rings⟩
  | client live other stepped =>
      cases live
      obtain ⟨events, dispatched, outbox⟩ := ClientThread.sent_of_step stepped
      refine ⟨tidy, ?_, none_refused, moved, rings⟩
      change _ = accepted ++ _ at sent
      change _ = accepted ++ _
      simp only [Process.dispatched, Process.outbox, Object.last?, Option.elim_some] at sent ⊢
      rw [dispatched, sent, outbox, List.append_assoc]
  | push live ring waiting ran =>
      cases live
      cases ring
      obtain ⟨ring, loop, -, same, opened, -⟩ := Owns.serves_of_client owns
      cases same
      obtain ⟨rfl, contents, rings'⟩ := (rings _ rfl).push opened ran
      refine ⟨tidy, ?_, ?_, ?_, fun queue live => ?_⟩
      · simp only [Process.dispatched, Process.outbox, Object.last?, Option.elim_some] at sent ⊢
        rw [sent, waiting]
        simp
      · exact (List.append_nil refused).trans none_refused
      · simp only [Process.contents, Process.taken, Object.last?, Option.elim_some] at moved ⊢
        rw [moved, contents]
        simp
      · cases live
        exact rings'
  | writer live stepped =>
      cases live
      refine ⟨tidy, sent, none_refused, ?_, rings⟩
      simp only [Process.taken, Object.last?, Option.elim_some] at moved ⊢
      rw [moved, WriterThread.taken_of_step stepped]
      rfl
  | pop live ring pc ran =>
      cases live
      cases ring
      obtain ⟨contents, rings'⟩ := (rings _ rfl).pop ran
      refine ⟨tidy, sent, none_refused, ?_, fun queue live => ?_⟩
      · simp only [Process.contents, Process.taken, Object.last?, Option.elim_some,
          WriterThread.taken] at moved ⊢
        rw [moved, contents, pc]
        simp [WriterPc.inFlight]
      · cases live
        exact rings'

/-! ## Sound processes -/

/-- The events flow, and the client works for the loaded configuration. -/
structure Sound (getenv : String → Option CString) (unpack : Buffer → Option SubscribeUpdate)
    (process : Process Buffer) : Prop where
  flows : process.Flows
  loaded : ∀ config, process.point.config? = some config →
    ∃ memory, yureiConfigLoad memory getenv = some config
  configured : ∀ thread, process.client.last? = some thread →
    ∃ memory config, yureiConfigLoad memory getenv = some config ∧
      thread.detector = config.detector
  traced : ∀ thread, process.client.last? = some thread → thread.Traced unpack
  waits : process.outbox.length ≤ 1
  capacity : ∀ queue, process.queue.last? = some queue →
    queue.capacity = (loadCapacity (getenv "YUREI_QUEUE_CAPACITY")).toNat

theorem start_sound : (start : Process Buffer).Sound getenv unpack where
  flows := start_flows
  loaded := nofun
  configured _ live := nomatch live
  traced _ live := nomatch live
  waits := Nat.zero_le 1
  capacity _ live := nomatch live

theorem sound_step (sound : process.Sound getenv unpack)
    (went : process.step getenv unpack action = some next) : next.Sound getenv unpack := by
  have flows := flows_step sound.flows went
  obtain ⟨point, signalled, queue, metrics, writer, client, accepted, refused⟩ := process
  obtain ⟨-, loaded, configured, traced, waits, capacity⟩ := sound
  cases steps_of_step went with
  | rejected | uncreated | writerFailed | clientFailed | writerStopped | writerJoined =>
      exact ⟨flows, nofun, configured, traced, waits, capacity⟩
  | @loaded env config here accepted =>
      refine ⟨flows, fun other same => ?_, configured, traced, waits, capacity⟩
      cases same
      exact ⟨env.memory, accepted⟩
  | @created env config here =>
      cases here
      obtain ⟨memory, accepted⟩ := loaded config rfl
      refine ⟨flows, loaded, configured, traced, waits, fun queue live => ?_⟩
      cases live
      rw [← queueCapacity_of_load accepted]
      rfl
  | writerStarted here =>
      cases here
      exact ⟨flows, loaded, configured, traced, waits, capacity⟩
  | @clientStarted env config here =>
      cases here
      obtain ⟨memory, accepted⟩ := loaded config rfl
      refine ⟨flows, nofun, fun thread live => ?_, fun thread live => ?_, Nat.zero_le 1, capacity⟩
      · cases live
        exact ⟨memory, config, accepted, rfl⟩
      · cases live
        exact ⟨nofun, nofun⟩
  | waits here =>
      refine ⟨flows, fun config same => ?_, configured, traced, waits, capacity⟩
      cases signalled <;> cases same
  | clientStopped here live =>
      cases live
      refine ⟨flows, nofun, fun thread live => ?_, fun thread live => ?_, waits, capacity⟩
      · cases live
        have known := configured _ rfl
        exact known
      · cases live
        obtain ⟨carries, origin⟩ := traced _ rfl
        exact ⟨carries, origin⟩
  | clientJoined here live finished flushed =>
      cases live
      exact ⟨flows, nofun, configured, traced, waits, capacity⟩
  | queueClosed here ring =>
      cases ring
      refine ⟨flows, nofun, configured, traced, waits, fun queue live => ?_⟩
      cases live
      have known := capacity _ rfl
      exact known
  | destroyed here ring =>
      cases ring
      exact ⟨flows, nofun, configured, traced, waits, capacity⟩
  | signal | writer => exact ⟨flows, loaded, configured, traced, waits, capacity⟩
  | client live other stepped =>
      cases live
      refine ⟨flows, loaded, fun thread live => ?_, fun thread live => ?_, ?_, capacity⟩
      · cases live
        rw [ClientThread.detector_of_step stepped]
        exact configured _ rfl
      · cases live
        exact (traced _ rfl).step stepped
      · exact ClientThread.outbox_of_step waits stepped
  | push live ring waiting ran =>
      cases live
      cases ring
      refine ⟨flows, loaded, fun thread live => ?_, fun thread live => ?_, ?_, fun queue live => ?_⟩
      · cases live
        have known := configured _ rfl
        exact known
      · cases live
        obtain ⟨carries, origin⟩ := traced _ rfl
        exact ⟨carries, origin⟩
      · simp only [Process.outbox, Object.last?, Option.elim_some] at waits ⊢
        rw [waiting, List.length_cons] at waits
        omega
      · cases live
        rw [Queue.capacity_of_push ran]
        exact capacity _ rfl
  | pop live ring pc ran =>
      cases ring
      refine ⟨flows, loaded, configured, traced, waits, fun queue live => ?_⟩
      cases live
      rw [Queue.capacity_of_pop ran]
      exact capacity _ rfl

/-- Every state of a process is sound. -/
theorem sound_run {actions : List (ProcessAction Buffer)}
    (execution : Execution.run (step getenv unpack) start actions = some process) :
    process.Sound getenv unpack :=
  Execution.run_invariant (fun _ _ _ => sound_step) start_sound execution

end Process

/-! ## The writer in a run -/

/-- The flushes of a step find admissible environments. -/
def WriterAction.Admits (admissible : FlushEnv → Prop) : WriterAction → Prop
  | .test => True
  | .handle env => env.Admits admissible
  | .finish env => admissible env.pumpfun ∧ admissible env.raydium

/-- The flushes of a step find admissible environments. -/
def ProcessAction.Admits (admissible : FlushEnv → Prop) : ProcessAction Buffer → Prop
  | .writer action => action.Admits admissible
  | _ => True

theorem ProcessAction.admits_trivial (action : ProcessAction Buffer) :
    action.Admits fun _ => True := by
  cases action with
  | writer action =>
      cases action with
      | test => trivial
      | handle env => exact ⟨trivial, trivial, trivial⟩
      | finish env => exact ⟨trivial, trivial⟩
  | _ => trivial

section Preservation

variable {admissible : FlushEnv → Prop} {poppable : Event → Prop} {property : DbWriter → Prop}

/-- The thread keeps what an iteration keeps. -/
theorem WriterThread.step_preserves (preserved : Preserved admissible poppable property)
    (closes : ∀ writer, property writer → property { writer with conn := false })
    {thread after : WriterThread} {action : WriterAction} (admits : action.Admits admissible)
    (popped : ∀ event ∈ thread.pc.inFlight, poppable event) (initially : property thread.writer)
    (went : thread.step action = some after) : property after.writer := by
  cases action with
  | test =>
      obtain ⟨here, ⟨⟩⟩ := Option.ite_none_right_eq_some.mp went
      exact initially
  | handle env =>
      rw [step] at went
      split at went
      · next event here =>
          obtain ⟨next, iterated, rfl⟩ := Option.map_eq_some_iff.mp went
          refine iteration_preserves preserved ?_ ?_ initially (toOption_eq_some.mp iterated)
          · exact ⟨admits.sizeFlush, admits.pumpfun, admits.raydium⟩
          · rintro event rfl
            apply popped
            rw [here]
            exact List.mem_singleton_self event
      · cases went
  | finish env =>
      obtain ⟨here, finished⟩ := Option.ite_none_right_eq_some.mp went
      obtain ⟨next, flushed, rfl⟩ := Option.map_eq_some_iff.mp finished
      apply closes
      exact flushAllBatches_preserves preserved.toFlushesPreserve admits.1 admits.2 initially
        (toOption_eq_some.mp flushed)

end Preservation

namespace Process

variable {getenv : String → Option CString} {unpack : Buffer → Option SubscribeUpdate}
  {process next : Process Buffer} {action : ProcessAction Buffer}

/-- Whatever the writer takes has been read off a message. -/
theorem Sound.ingested (sound : process.Sound getenv unpack) {event : Event}
    (member : event ∈ process.taken) :
    ∃ memory config, yureiConfigLoad memory getenv = some config ∧ ∃ buffer ∈ process.received,
      ∃ update, unpack buffer = some (.transaction (some update)) ∧
        Ingested config.detector update event := by
  have dispatched : event ∈ process.dispatched := by
    rw [sound.flows.sent, sound.flows.moved]
    exact List.mem_append_left _ (List.mem_append_left _ member)
  rw [Process.dispatched] at dispatched
  rw [received]
  cases live : process.client.last? with
  | none =>
      rw [live] at dispatched
      cases dispatched
  | some thread =>
      rw [live] at dispatched
      obtain ⟨memory, config, loaded, detector⟩ := sound.configured thread live
      obtain ⟨buffer, arrived, update, message, ingested⟩ :=
        (sound.traced thread live).origin event dispatched
      rw [detector] at ingested
      exact ⟨memory, config, loaded, buffer, arrived, update, message, ingested⟩

/-- Every dispatched event is a trade. -/
theorem Sound.exists_trade (sound : process.Sound getenv unpack) {event : Event}
    (member : event ∈ process.dispatched) : ∃ trade, event.data = .pumpfunTrade trade := by
  rw [dispatched] at member
  cases live : process.client.last? with
  | none =>
      rw [live] at member
      cases member
  | some thread =>
      rw [live] at member
      obtain ⟨buffer, -, update, -, read⟩ := (sound.traced thread live).origin event member
      exact read.exists_trade

section Preservation

variable {admissible : FlushEnv → Prop} {poppable : Event → Prop} {property : DbWriter → Prop}

/-- What an iteration keeps holds in every run whose flushes find admissible environments. -/
theorem writer_run (preserved : Preserved admissible poppable property)
    (closes : ∀ writer, property writer → property { writer with conn := false })
    (starts : ∀ lastFlush, property (dbWriterStart lastFlush Metrics.init))
    (poppables : ∀ detector update event, Ingested detector update event → poppable event)
    {actions : List (ProcessAction Buffer)} (admits : ∀ action ∈ actions, action.Admits admissible)
    (execution : Execution.run (step getenv unpack) start actions = some process) :
    ∀ thread, process.writer.last? = some thread → property thread.writer := by
  have stepwise : ∀ (before : Process Buffer) (action : ProcessAction Buffer)
      (after : Process Buffer), action.Admits admissible →
        (before.Sound getenv unpack ∧
          ∀ thread, before.writer.last? = some thread → property thread.writer) →
        before.step getenv unpack action = some after →
          after.Sound getenv unpack ∧
            ∀ thread, after.writer.last? = some thread → property thread.writer := by
    rintro before action after admitted ⟨sound, holds⟩ went
    refine ⟨sound_step sound went, ?_⟩
    have ingested := @Sound.ingested _ _ _ _ sound
    obtain ⟨point, signalled, queue, metrics, writer, client, accepted, refused⟩ := before
    cases steps_of_step went with
    | writerStarted here =>
        intro thread live
        cases live
        exact starts _
    | writerStopped here live =>
        cases live
        intro thread live
        cases live
        have held := holds _ rfl
        exact held
    | writerJoined here live returned =>
        cases live
        exact holds
    | writer live stepped =>
        cases live
        intro thread live
        cases live
        refine WriterThread.step_preserves preserved closes admitted ?_ (holds _ rfl) stepped
        intro event member
        obtain ⟨memory, config, -, buffer, -, update, -, read⟩ :=
          ingested (List.mem_append_right _ member)
        exact poppables _ _ _ read
    | pop live ring pc ran =>
        cases live
        intro thread live
        cases live
        have held := holds _ rfl
        exact held
    | _ => exact holds
  have initially : ∀ thread, (start : Process Buffer).writer.last? = some thread →
      property thread.writer := fun _ live => nomatch live
  exact (Execution.run_invariant_of_forall stepwise admits ⟨start_sound, initially⟩ execution).2

end Preservation

end Process

end YureiGeyser
