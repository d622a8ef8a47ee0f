import YureiGeyser.EndToEnd
import YureiGeyser.Library.Progress

/-!
# The components of the process

What happens to the client in a process is a run of the client by itself, and what happens to the
queue and the writer is a run of the shutdown system.  Whatever holds of all runs of a component
holds in the process.
-/

namespace YureiGeyser

variable {Buffer : Type}

/-- How far `main` has got in the eyes of the queue and the writer. -/
def MainPoint.phase : MainPoint → MainPhase
  | .stopWriter _ => .joined
  | .closeQueue _ => .stopping
  | .joinWriter _ => .closed
  | .destroy _ => .closed
  | .exited _ => .closed
  | _ => .producing

namespace Shutdown

variable {system : Shutdown}

theorem join_of_phase (phase : system.phase = .producing) :
    system.step .join = some { system with phase := .joined } :=
  if_pos phase

theorem stop_of_phase (phase : system.phase = .joined) :
    system.step .stop = some { system with phase := .stopping, running := false } :=
  if_pos phase

theorem close_of_phase (phase : system.phase = .stopping) :
    system.step .close =
      some { system with phase := .closed, queue := eventQueueClose system.queue } :=
  if_pos phase

end Shutdown

namespace Process

variable {getenv : String → Option CString} {unpack : Buffer → Option SubscribeUpdate}
  {process next : Process Buffer} {action : ProcessAction Buffer}
  {actions : List (ProcessAction Buffer)}

/-- The client is in a state of a run of its own, with the loaded configuration. -/
def RunsClient (getenv : String → Option CString) (unpack : Buffer → Option SubscribeUpdate)
    (process : Process Buffer) : Prop :=
  ∀ thread, process.client.last? = some thread →
    ∃ memory config moves, yureiConfigLoad memory getenv = some config ∧
      thread.detector = config.detector ∧
        Execution.run (Client.step config.detector unpack) (Client.start config.toYureiConfig)
          moves = some thread.client

theorem runsClient_step (sound : process.Sound getenv unpack)
    (runs : process.RunsClient getenv unpack)
    (went : process.step getenv unpack action = some next) : next.RunsClient getenv unpack := by
  have loads := sound.loaded
  obtain ⟨point, signalled, queue, metrics, writer, client, accepted, refused⟩ := process
  cases steps_of_step went with
  | @clientStarted env config here =>
      cases here
      obtain ⟨memory, loaded⟩ := loads config rfl
      intro thread live
      cases live
      exact ⟨memory, config, [], loaded, rfl, rfl⟩
  | clientStopped here live =>
      cases live
      obtain ⟨memory, config, moves, loaded, detector, execution⟩ := runs _ rfl
      intro thread live
      cases live
      exact ⟨memory, config, moves ++ [.stop], loaded, detector, Execution.run_snoc execution rfl⟩
  | clientJoined here live finished flushed =>
      cases live
      exact runs
  | @client thread after action live other stepped =>
      cases live
      obtain ⟨memory, config, moves, loaded, detector, execution⟩ := runs _ rfl
      obtain ⟨-, ran⟩ := Option.ite_none_right_eq_some.mp stepped
      obtain ⟨client, taken, rfl⟩ := Option.map_eq_some_iff.mp ran
      intro thread live
      cases live
      rw [detector] at taken
      exact ⟨memory, config, moves ++ [action], loaded, detector,
        Execution.run_snoc execution taken⟩
  | push live ring waiting ran =>
      cases live
      intro thread live
      cases live
      have known := runs _ rfl
      exact known
  | _ => exact runs

/-- Until the writer is started nothing happens to the queue. -/
structure Fresh (process : Process Buffer) : Prop where
  idle : process.writer = .absent → process.metrics = Metrics.init ∧ process.accepted = []
  created : ∀ config, process.point = .startWriter config →
    process.queue = .live (eventQueueCreate config.queueCapacity.toNat)

theorem fresh_step (tidy : process.Tidy) (fresh : process.Fresh)
    (went : process.step getenv unpack action = some next) : next.Fresh := by
  obtain ⟨point, signalled, queue, metrics, writer, client, accepted, refused⟩ := process
  obtain ⟨idle, created⟩ := fresh
  have owns : Owns point queue writer client := tidy
  cases steps_of_step went with
  | rejected | loaded | uncreated | writerFailed | clientFailed | clientStarted | clientStopped
  | clientJoined | queueClosed | destroyed => exact ⟨idle, nofun⟩
  | created here =>
      refine ⟨idle, fun config same => ?_⟩
      cases same
      rfl
  | writerStarted | writerStopped | writerJoined => exact ⟨nofun, nofun⟩
  | waits here =>
      refine ⟨idle, fun config same => ?_⟩
      cases signalled <;> cases same
  | signal => exact ⟨idle, created⟩
  | client live other stepped => exact ⟨idle, created⟩
  | push live ring waiting ran =>
      cases live
      obtain ⟨ring, loop, serves, -, -, live, -⟩ := owns.serves_of_client
      cases live
      refine ⟨nofun, fun config same => ?_⟩
      cases same
      cases serves
  | writer live stepped =>
      cases live
      exact ⟨nofun, created⟩
  | pop live ring pc ran =>
      cases live
      refine ⟨nofun, fun config same => ?_⟩
      cases same
      cases owns with
      | serving serves => cases serves

/-- A shutdown system is in the state of the queue and the writer; behind its last flush the writer
has also closed its connection. -/
structure Matches (point : MainPoint) (queue : Queue) (metrics : Metrics) (thread : WriterThread)
    (accepted : List Event) (system : Shutdown) : Prop where
  queue : system.queue = queue
  metrics : system.metrics = metrics
  pc : system.pc = thread.pc
  running : system.running = thread.running
  accepted : system.accepted = accepted
  phase : system.phase = point.phase
  writer : thread.writer =
    if thread.pc = .returned then { system.writer with conn := false } else system.writer

namespace Matches

variable {point : MainPoint} {queue : Queue} {metrics : Metrics} {thread : WriterThread}
  {accepted : List Event} {system : Shutdown}

theorem of_phase (same : Matches point queue metrics thread accepted system) {later : MainPoint}
    (phase : point.phase = later.phase) : Matches later queue metrics thread accepted system :=
  { same with phase := same.phase.trans phase }

theorem at_phase (same : Matches point queue metrics thread accepted system) (later : MainPoint) :
    Matches later queue metrics thread accepted { system with phase := later.phase } :=
  ⟨same.queue, same.metrics, same.pc, same.running, same.accepted, rfl, same.writer⟩

/-- Before its last flush the writer is the same. -/
theorem writer_eq (same : Matches point queue metrics thread accepted system)
    (early : thread.pc ≠ .returned) : system.writer = thread.writer := by
  rw [same.writer, if_neg early]

theorem writer_step (same : Matches point queue metrics thread accepted system)
    {action : WriterAction} {after : WriterThread} (went : thread.step action = some after) :
    ∃ move next, system.step move = some next ∧
      Matches point queue metrics after accepted next := by
  cases action with
  | test =>
      obtain ⟨here, ⟨⟩⟩ := Option.ite_none_right_eq_some.mp went
      have writer := same.writer_eq (by rw [here]; exact WriterPc.noConfusion)
      refine ⟨.test, _, if_pos (same.pc.trans here), same.queue, same.metrics, ?_, same.running,
        same.accepted, same.phase, ?_⟩
      · rw [same.running]
      · dsimp only
        rw [writer]
        cases thread.running <;> rfl
  | handle env =>
      rw [WriterThread.step] at went
      split at went
      · next popped here =>
          obtain ⟨writer, iterated, rfl⟩ := Option.map_eq_some_iff.mp went
          have before := same.writer_eq (by rw [here]; exact WriterPc.noConfusion)
          refine ⟨.handle env, { system with writer, pc := .test }, ?_, same.queue, same.metrics,
            rfl, same.running, same.accepted, same.phase, rfl⟩
          simp only [Shutdown.step, same.pc, here, before]
          rw [iterated]
          rfl
      · cases went
  | finish env =>
      obtain ⟨here, finished⟩ := Option.ite_none_right_eq_some.mp went
      obtain ⟨writer, flushed, rfl⟩ := Option.map_eq_some_iff.mp finished
      have before := same.writer_eq (by rw [here]; exact WriterPc.noConfusion)
      refine ⟨.finish env, { system with writer, pc := .returned }, ?_, same.queue, same.metrics,
        rfl, same.running, same.accepted, same.phase, rfl⟩
      rw [Shutdown.step, if_pos (same.pc.trans here), before, flushed]
      rfl

end Matches

/-- The queue and the writer are in a state of a run of the shutdown system. -/
def RunsShutdown (getenv : String → Option CString) (process : Process Buffer) : Prop :=
  ∀ queue thread, process.queue.last? = some queue → process.writer.last? = some thread →
    ∃ lastFlush moves system,
      Execution.run Shutdown.step
        (Shutdown.start (loadCapacity (getenv "YUREI_QUEUE_CAPACITY")).toNat lastFlush) moves =
          some system ∧
      Matches process.point queue process.metrics thread process.accepted system

theorem runsShutdown_step (sound : process.Sound getenv unpack) (fresh : process.Fresh)
    (runs : process.RunsShutdown getenv) (went : process.step getenv unpack action = some next) :
    next.RunsShutdown getenv := by
  have owns : Owns process.point process.queue process.writer process.client := sound.flows.tidy
  have loads := sound.loaded
  obtain ⟨point, signalled, queue, metrics, writer, client, accepted, refused⟩ := process
  cases steps_of_step went with
  | rejected here | loaded here =>
      cases here
      cases owns with
      | load => exact fun queue thread _ live => nomatch live
      | serving serves => cases serves
  | created here | uncreated here =>
      cases here
      cases owns with
      | create => exact fun queue thread _ live => nomatch live
      | serving serves => cases serves
  | writerFailed here =>
      cases here
      cases owns with
      | startWriter => exact fun queue thread _ live => nomatch live
      | serving serves => cases serves
  | @writerStarted env config here =>
      cases here
      obtain ⟨memory, loaded⟩ := loads config rfl
      cases fresh.created config rfl
      cases owns with
      | startWriter =>
          obtain ⟨rfl, rfl⟩ := fresh.idle rfl
          intro queue thread ring live
          cases live
          cases ring
          rw [queueCapacity_of_load loaded]
          exact ⟨env.lastFlush, [], _, rfl, rfl, rfl, rfl, rfl, rfl, rfl, rfl⟩
      | serving serves => cases serves
  | clientStarted here =>
      cases here
      intro queue thread ring live
      obtain ⟨lastFlush, moves, system, execution, same⟩ := runs queue thread ring live
      exact ⟨lastFlush, moves, system, execution, same.of_phase rfl⟩
  | waits here =>
      cases here
      intro queue thread ring live
      obtain ⟨lastFlush, moves, system, execution, same⟩ := runs queue thread ring live
      refine ⟨lastFlush, moves, system, execution, same.of_phase ?_⟩
      cases signalled <;> rfl
  | clientFailed here =>
      cases here
      intro queue thread ring live
      obtain ⟨lastFlush, moves, system, execution, same⟩ := runs queue thread ring live
      exact ⟨lastFlush, moves ++ [.join], _,
        Execution.run_snoc execution (Shutdown.join_of_phase same.phase), same.at_phase _⟩
  | clientStopped here live =>
      cases here
      intro queue thread ring live
      obtain ⟨lastFlush, moves, system, execution, same⟩ := runs queue thread ring live
      exact ⟨lastFlush, moves, system, execution, same.of_phase rfl⟩
  | clientJoined here live finished flushed =>
      cases here
      intro queue thread ring live
      obtain ⟨lastFlush, moves, system, execution, same⟩ := runs queue thread ring live
      exact ⟨lastFlush, moves ++ [.join], _,
        Execution.run_snoc execution (Shutdown.join_of_phase same.phase), same.at_phase _⟩
  | writerStopped here live =>
      cases here
      cases live
      intro queue thread ring live
      cases live
      obtain ⟨lastFlush, moves, system, execution, same⟩ := runs queue _ ring rfl
      refine ⟨lastFlush, moves ++ [.stop], _,
        Execution.run_snoc execution (Shutdown.stop_of_phase same.phase), ?_⟩
      exact ⟨same.queue, same.metrics, same.pc, rfl, same.accepted, rfl, same.writer⟩
  | queueClosed here ring =>
      cases here
      cases ring
      intro queue thread ring live
      cases ring
      obtain ⟨lastFlush, moves, system, execution, same⟩ := runs _ thread rfl live
      refine ⟨lastFlush, moves ++ [.close], _,
        Execution.run_snoc execution (Shutdown.close_of_phase same.phase), ?_⟩
      exact ⟨congrArg eventQueueClose same.queue, same.metrics, same.pc, same.running,
        same.accepted, rfl, same.writer⟩
  | writerJoined here live returned =>
      cases here
      cases live
      intro queue thread ring live
      obtain ⟨lastFlush, moves, system, execution, same⟩ := runs queue thread ring live
      exact ⟨lastFlush, moves, system, execution, same.of_phase rfl⟩
  | destroyed here ring =>
      cases here
      cases ring
      intro queue thread ring live
      obtain ⟨lastFlush, moves, system, execution, same⟩ := runs queue thread ring live
      exact ⟨lastFlush, moves, system, execution, same.of_phase rfl⟩
  | signal => exact runs
  | client live other stepped => exact runs
  | @push sender ring' after event outbox ok metrics' live ring waiting ran =>
      cases live
      cases ring
      obtain ⟨ring, loop, serves, ring_eq, opened, -⟩ := owns.serves_of_client
      cases ring_eq
      intro queue thread ring live
      cases ring
      obtain ⟨lastFlush, moves, system, execution, same⟩ := runs _ thread rfl live
      have typed : event.type ≠ .none := by
        have member : event ∈ Process.dispatched ⟨point, signalled, .live ring', metrics, writer,
            .live sender, accepted, refused⟩ := by
          rw [sound.flows.sent]
          refine List.mem_append_right _ ?_
          change event ∈ sender.outbox
          rw [waiting]
          exact List.mem_cons_self
        obtain ⟨trade, data⟩ := sound.exists_trade member
        rw [Event.type, data]
        exact EventType.noConfusion
      obtain ⟨rfl, -, -⟩ := (sound.flows.rings _ rfl).push opened ran
      have producing : system.phase = .producing := by
        rw [same.phase]
        cases point <;> first | rfl | cases serves
      refine ⟨lastFlush, moves ++ [.push event], { system with
        queue := after, metrics := metrics', accepted := system.accepted ++ [event] },
        Execution.run_snoc execution ?_, ?_⟩
      · rw [Shutdown.step, if_pos ⟨producing, typed⟩, same.queue, same.metrics]
        change (eventQueuePush event ring' metrics).map _ = _
        rw [ran]
        rfl
      · exact ⟨rfl, rfl, same.pc, same.running, congrArg (· ++ [event]) same.accepted, same.phase,
          same.writer⟩
  | writer live stepped =>
      cases live
      intro queue thread ring live
      cases live
      obtain ⟨lastFlush, moves, system, execution, same⟩ := runs queue _ ring rfl
      obtain ⟨move, next, taken, same'⟩ := same.writer_step stepped
      exact ⟨lastFlush, moves ++ [move], next, Execution.run_snoc execution taken, same'⟩
  | @pop thread ring' after result metrics' live ring pc ran =>
      cases live
      cases ring
      intro queue thread ring live
      cases ring
      cases live
      obtain ⟨lastFlush, moves, system, execution, same⟩ := runs _ _ rfl rfl
      have writer := same.writer_eq (by rw [pc]; exact WriterPc.noConfusion)
      refine ⟨lastFlush, moves ++ [.pop], { system with
        queue := after, metrics := metrics', pc := .handle result },
        Execution.run_snoc execution ?_, rfl, rfl, rfl, same.running, same.accepted, same.phase,
        writer.symm⟩
      rw [Shutdown.step, if_pos (same.pc.trans pc), same.queue, same.metrics]
      change (eventQueuePop false ring' metrics).map _ = _
      rw [ran]
      rfl

/-- Every state of the client in a process is a state of a run of the client by itself with the
loaded configuration, and every state of the queue and the writer is a state of a run of the
shutdown system, up to the connection that the writer closes in the end. -/
theorem components_run
    (execution : Execution.run (step getenv unpack) start actions = some process) :
    process.RunsClient getenv unpack ∧ process.RunsShutdown getenv := by
  have stepwise : ∀ (before : Process Buffer) (action : ProcessAction Buffer)
      (after : Process Buffer),
      (before.Sound getenv unpack ∧ before.Fresh) ∧
        before.RunsClient getenv unpack ∧ before.RunsShutdown getenv →
      before.step getenv unpack action = some after →
        (after.Sound getenv unpack ∧ after.Fresh) ∧
          after.RunsClient getenv unpack ∧ after.RunsShutdown getenv := by
    rintro before action after ⟨⟨sound, fresh⟩, client, shutdown⟩ went
    exact ⟨⟨sound_step sound went, fresh_step sound.flows.tidy fresh went⟩,
      runsClient_step sound client went, runsShutdown_step sound fresh shutdown went⟩
  refine (Execution.run_invariant stepwise ⟨⟨start_sound, ?_⟩, (fun _ live => nomatch live),
    fun _ _ live => nomatch live⟩ execution).2
  exact ⟨fun _ => ⟨rfl, rfl⟩, nofun⟩

theorem components_run_earlySignal :
    ∃ process : Process Unit, Execution.run (step (fun _ => none) fun _ => some .other) start
        earlySignal = some process ∧
      process.client.last?.isSome = true ∧ process.writer.last?.isSome = true ∧
        process.RunsClient (fun _ => none) (fun _ => some .other) ∧
          process.RunsShutdown fun _ => none := by
  have outcome : (Execution.run (step (fun _ => none) fun _ => some .other) start
      earlySignal).map (fun process => (process.client.last?.isSome, process.writer.last?.isSome)) =
        some (true, true) := by
    decide +kernel
  obtain ⟨process, execution, started⟩ := Option.map_eq_some_iff.mp outcome
  obtain ⟨client, writer⟩ := Prod.mk.inj started
  exact ⟨process, execution, client, writer, components_run execution⟩

end Process

end YureiGeyser
