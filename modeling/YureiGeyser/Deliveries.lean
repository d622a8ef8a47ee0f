import YureiGeyser.EndToEnd
import YureiGeyser.LogTrades
import YureiGeyser.Routing

/-!
# What the database holds

The results about whole runs of the process: where every dispatched event is, what the committed
rows are and where they come from, and what their texts say.

A run ends at its first undefined step, and nothing here is about what the program does from then
on.  For the writer this is an append into a full batch (`storeEvent_ok_iff`): it does not test for
room, and the store overwrites the count behind the array.  For the client it is a log line that
overruns the 512 bytes of `process_raydium`; those of `process_pumpfun` are never overrun
(`decodeProgramDataLine_ok`).
-/

namespace YureiGeyser

open Base58

variable {Buffer : Type}

/-- The database has memory for the keys of every row. -/
def FlushEnv.Encodes (env : FlushEnv) : Prop :=
  ∀ row key, env.alloc row key = true

namespace Process

/-- What the writer has done. -/
def trace (process : Process Buffer) : List TraceItem :=
  process.writer.last?.elim [] fun thread => thread.writer.trace

/-- The trades that wait for a flush. -/
def pumpfunBatch (process : Process Buffer) : List (Entry PumpfunTrade) :=
  process.writer.last?.elim [] fun thread => thread.writer.pumpfunBatch

/-- The swaps that wait for a flush. -/
def raydiumBatch (process : Process Buffer) : List (Entry RaydiumSwap) :=
  process.writer.last?.elim [] fun thread => thread.writer.raydiumBatch

/-- The event that the writer has popped but not yet stored. -/
def inFlight (process : Process Buffer) : List Event :=
  process.writer.last?.elim [] fun thread => thread.pc.inFlight

variable {getenv : String → Option CString} {unpack : Buffer → Option SubscribeUpdate}
  {process : Process Buffer} {actions : List (ProcessAction Buffer)}

theorem taken_eq (process : Process Buffer) :
    process.taken = poppedEvents process.trace ++ process.inFlight := by
  rw [taken, trace, inFlight]
  cases process.writer.last? <;> rfl

/-- The dispatched events are, in their order, what the writer has popped, what it holds, what the
queue holds and what the client has still to push. -/
theorem Flows.dispatched_eq (flows : process.Flows) :
    process.dispatched = poppedEvents process.trace ++
      (process.inFlight ++ process.contents ++ process.outbox) := by
  rw [flows.sent, flows.moved, taken_eq, List.append_assoc, List.append_assoc, List.append_assoc]

/-- When `main` has returned, the threads hold nothing. -/
theorem Flows.idle (flows : process.Flows) {success : Bool}
    (exited : process.point = .exited success) : process.inFlight = [] ∧ process.outbox = [] := by
  obtain ⟨point, signalled, queue, metrics, writer, client, accepted, refused⟩ := process
  have owns : Owns point queue writer client := flows.tidy
  cases exited
  cases owns with
  | serving serves => cases serves
  | exited destroyed joined ended =>
      constructor
      · cases writer with
        | absent => rfl
        | live writer => exact joined.elim
        | freed writer =>
            change writer.pc.inFlight = []
            rw [show writer.pc = .returned from joined]
            rfl
      · cases client with
        | absent => rfl
        | live thread => exact ended.elim
        | freed thread => exact ended.2.2

theorem Sound.dispatched_swaps (sound : process.Sound getenv unpack) :
    process.dispatched.filterMap Event.swap? = [] := by
  apply List.filterMap_eq_nil_iff.mpr
  intro event member
  obtain ⟨trade, data⟩ := sound.exists_trade member
  rw [Event.swap?, data]

/-- In every run no push is refused, and each event that the client has dispatched is in exactly
one place; once `main` has returned, the writer has popped it or it is left in the queue. -/
theorem dispatched_in_order (execution : Execution.run (step getenv unpack) start actions =
    some process) :
    process.refused = [] ∧
      process.dispatched = poppedEvents process.trace ++
        (process.inFlight ++ process.contents ++ process.outbox) ∧
      ∀ success, process.point = .exited success →
        process.dispatched = poppedEvents process.trace ++ process.contents := by
  have flows := (sound_run execution).flows
  refine ⟨flows.refused, flows.dispatched_eq, fun success exited => ?_⟩
  obtain ⟨idle, flushed⟩ := flows.idle exited
  have everywhere := flows.dispatched_eq
  rw [idle, flushed, List.nil_append, List.append_nil] at everywhere
  exact everywhere

/-- The program id of 32 zero bytes. -/
def onesProgram : CString where
  bytes := List.replicate 32 49
  noNul byte member := by
    rw [List.eq_of_mem_replicate member]
    decide

/-- An environment with this PumpFun program id and nothing else. -/
def onesOnly (name : String) : Option CString :=
  if name = "YUREI_PUMPFUN_PROGRAM" then some onesProgram else none

/-- A trade of the program at a slot. -/
def tradedAt (slot : UInt64) : SubscribeUpdateTransaction :=
  { sampleUpdate Pubkey.zero [1] [sampleTradeLine] with slot }

/-- Every message is a transaction. -/
def always (update : SubscribeUpdateTransaction) : Unit → Option SubscribeUpdate :=
  fun _ => some (.transaction (some update))

/-- A message arrives, and the writer handles its event. -/
def tradeRun (env : Iteration) : List (ProcessAction Unit) :=
  [.main mainEnv, .main mainEnv, .main mainEnv, .main mainEnv, .client .advance,
    .client (.subscribe ⟨true, true, true⟩ true), .client .advance,
    .client (.next (.opComplete ⟨.handshake, true⟩) none), .client .advance,
    .client (.startReceive true), .client .advance,
    .client (.next (.opComplete ⟨.receive, true⟩) (some ())), .client (.handle true), .push,
    .writer .test, .pop, .writer (.handle env)]

/-- An iteration whose timer fires; the database answers as told. -/
def flushing (execOk : Bool) : Iteration where
  popped := none
  sizeFlush := Shutdown.healthyFlush
  now := ⟨1, 0⟩
  timerFlush :=
    ⟨{ Shutdown.healthyFlush with execOk }, { Shutdown.healthyFlush with execOk }, ⟨1, 0⟩⟩

theorem tradeRun_encodes (execOk : Bool) :
    ∀ action ∈ tradeRun (flushing execOk), action.Admits FlushEnv.Encodes := by
  simp only [tradeRun, List.forall_mem_cons, ProcessAction.Admits, WriterAction.Admits, true_and]
  exact ⟨⟨fun _ _ => rfl, fun _ _ => rfl, fun _ _ => rfl⟩, List.forall_mem_nil _⟩

/-- What `yurei_config_load` makes of the environment. -/
def onesConfig : LoadedConfig :=
  (yureiConfigLoad mainEnv.memory onesOnly).get (by decide +kernel)

/-- The event of the trade. -/
def tradedEvent (slot : UInt64) : Event :=
  makeEvent true (tradedAt slot) (.pumpfunTrade (sampleTrade.trade slot))

theorem handleTransaction_tradedAt (slot : UInt64) :
    handleTransaction onesConfig.detector true (some (tradedAt slot)) = .ok [tradedEvent slot] := by
  have bounded : (sampleTrade.encode ++ []).length ≤ 768 := by
    rw [List.append_nil, PumpfunTradeLayout.encode_length]
    decide
  have detected : (tradedAt slot).protocol onesConfig.detector = .pumpfun := by
    change (tradedAt 0).protocol onesConfig.detector = .pumpfun
    decide +kernel
  have logged : (tradedAt slot).logMessages =
      some ([] ++ programDataLine CString.empty (sampleTrade.encode ++ []) :: []) := by
    rw [List.append_nil]
    rfl
  exact handleTransaction_programDataLine bounded detected logged (by decide) (by simp)

/-- The call when its first message has arrived. -/
def servedCall : GrpcCall Unit :=
  ((GrpcCall.fresh.complete none (.opComplete ⟨.handshake, true⟩)).receiving).complete (some ())
    (.opComplete ⟨.receive, true⟩)

/-- The process then, with the events of the message once it is handled. -/
def served (point : CallPoint Unit) (events : List Event) : Process Unit where
  point := .wait
  signalled := false
  queue := .live (eventQueueCreate onesConfig.queueCapacity.toNat)
  metrics := Metrics.init
  writer := .live ⟨dbWriterStart mainEnv.lastFlush Metrics.init, .test, true⟩
  client := .live ⟨⟨onesConfig.toYureiConfig, true, 1, .attempt servedCall point, events⟩,
    onesConfig.detector, events, [()]⟩
  accepted := []
  refused := []

theorem run_served (unpack : Unit → Option SubscribeUpdate) (env : Iteration) :
    Execution.run (step onesOnly unpack) start ((tradeRun env).take 12) =
      some (served (.handle ()) []) := by
  have loads : step onesOnly unpack start (.main mainEnv) =
      some { start with point := .create onesConfig } := by
    have loaded : yureiConfigLoad mainEnv.memory onesOnly = some onesConfig :=
      (Option.some_get _).symm
    rw [step, mainStep, start]
    dsimp only
    rw [loaded]
  exact Execution.run_cons_eq_some.mpr ⟨_, loads, rfl⟩

/-- The events stay abstract, so that nothing decodes the log line. -/
theorem run_handled {update : SubscribeUpdateTransaction} {events : List Event}
    (handled : handleTransaction onesConfig.detector true (some update) = .ok events)
    (env : Iteration) :
    Execution.run (step onesOnly (always update)) start ((tradeRun env).take 13) =
      some (served .loop events) := by
  have handles : step onesOnly (always update) (served (.handle ()) []) (.client (.handle true)) =
      some (served .loop events) := by
    simp [step, served, ClientAction.stops, ClientThread.step, Client.step, always, handled,
      ClientAction.received]
  have parts : (tradeRun env).take 13 = (tradeRun env).take 12 ++ [.client (.handle true)] := rfl
  rw [parts]
  exact Execution.run_append_eq_some.mpr
    ⟨_, run_served _ env, Execution.run_cons_eq_some.mpr ⟨_, handles, rfl⟩⟩

/-- The run goes on from the event. -/
theorem run_tradeRun (slot : UInt64) (env : Iteration) :
    Execution.run (step onesOnly (always (tradedAt slot))) start (tradeRun env) =
      Execution.run (step onesOnly (always (tradedAt slot))) (served .loop [tradedEvent slot])
        [.push, .writer .test, .pop, .writer (.handle env)] := by
  have parts : tradeRun env =
      (tradeRun env).take 13 ++ [.push, .writer .test, .pop, .writer (.handle env)] := rfl
  rw [parts, Execution.run_append, run_handled (handleTransaction_tradedAt slot) env]
  rfl

/-- A stored trade. -/
theorem tradeRun_stores :
    ∃ process, Execution.run (step onesOnly (always (tradedAt 7))) start
        (tradeRun (flushing true)) = some process ∧
      process.dispatched.length = 1 ∧ (committedTrades process.trace).length = 1 ∧
        (tradeTexts process.trace).length = 1 := by
  have outcome : (Execution.run (step onesOnly (always (tradedAt 7))) start
      (tradeRun (flushing true))).map (fun process =>
        (process.dispatched.length, (committedTrades process.trace).length,
          (tradeTexts process.trace).length)) = some (1, 1, 1) := by
    rw [run_tradeRun]
    decide +kernel
  obtain ⟨process, execution, facts⟩ := Option.map_eq_some_iff.mp outcome
  rw [Prod.mk.injEq, Prod.mk.injEq] at facts
  exact ⟨process, execution, facts⟩

/-- A trade that the database has refused. -/
theorem tradeRun_keeps :
    ∃ process, Execution.run (step onesOnly (always (tradedAt 9223372036854775808))) start
        (tradeRun (flushing false)) = some process ∧
      process.pumpfunBatch.length = 1 ∧ committedTrades process.trace = [] ∧
        ((poppedEvents process.trace).filterMap Event.trade?).map (·.record.slot) =
          [9223372036854775808] := by
  have outcome : (Execution.run (step onesOnly (always (tradedAt 9223372036854775808))) start
      (tradeRun (flushing false))).map (fun process =>
        (process.pumpfunBatch.length, (committedTrades process.trace).length,
          ((poppedEvents process.trace).filterMap Event.trade?).map (·.record.slot))) =
        some (1, 0, [9223372036854775808]) := by
    rw [run_tradeRun]
    decide +kernel
  obtain ⟨process, execution, facts⟩ := Option.map_eq_some_iff.mp outcome
  rw [Prod.mk.injEq, Prod.mk.injEq, List.length_eq_zero_iff] at facts
  exact ⟨process, execution, facts⟩

theorem dispatched_in_order_trade :
    ∃ process, Execution.run (step onesOnly (always (tradedAt 7))) start
        (tradeRun (flushing true)) = some process ∧
      process.dispatched.length = 1 ∧ process.refused = [] ∧
        process.dispatched = poppedEvents process.trace ++
          (process.inFlight ++ process.contents ++ process.outbox) := by
  obtain ⟨process, execution, length, -⟩ := tradeRun_stores
  obtain ⟨refused, everywhere, -⟩ := dispatched_in_order execution
  exact ⟨process, execution, length, refused, everywhere⟩

/-- The accounts of the writer hold in every run that has memory for the keys. -/
theorem accounted_run (encodes : ∀ action ∈ actions, action.Admits FlushEnv.Encodes)
    (execution : Execution.run (step getenv unpack) start actions = some process) :
    ∀ thread, process.writer.last? = some thread → Accounted thread.writer := by
  refine writer_run accounted_preserved ?_ dbWriterStart_accounted ?_ encodes execution
  · intro writer accounted
    exact ⟨accounted.trades, accounted.swaps, accounted.eventsTotal, accounted.success,
      accounted.batches⟩
  · intro detector update event ingested
    obtain ⟨trade, data⟩ := ingested.exists_trade
    rw [Event.type, data]
    exact EventType.noConfusion

/-- Whatever fails, what is stored has been popped, in this order and once. -/
theorem excerpt_run (execution : Execution.run (step getenv unpack) start actions = some process) :
    ∀ thread, process.writer.last? = some thread → Excerpt thread.writer := by
  refine writer_run excerpt_preserved ?_ (fun lastFlush => dbWriterStart_excerpt lastFlush _)
    (fun _ _ _ _ => trivial) (fun action _ => action.admits_trivial) execution
  intro writer excerpt
  exact ⟨excerpt.trades, excerpt.swaps⟩

theorem transcribed_run (encodes : ∀ action ∈ actions, action.Admits FlushEnv.Encodes)
    (execution : Execution.run (step getenv unpack) start actions = some process) :
    ∀ thread, process.writer.last? = some thread → Transcribed thread.writer := by
  refine writer_run transcribed_preserved ?_
    (fun lastFlush => dbWriterStart_transcribed lastFlush _)
    (fun _ _ _ ingested => ingested.signed) encodes execution
  intro writer transcribed
  exact ⟨transcribed.tradeSignatures, transcribed.swapSignatures, transcribed.trades,
    transcribed.swaps⟩

/-! ## Accounts -/

/-- With memory for the keys the popped trades are the committed rows and the batch. -/
theorem popped_trades (encodes : ∀ action ∈ actions, action.Admits FlushEnv.Encodes)
    (execution : Execution.run (step getenv unpack) start actions = some process) :
    (poppedEvents process.trace).filterMap Event.trade? =
      committedTrades process.trace ++ process.pumpfunBatch := by
  rw [trace, pumpfunBatch]
  cases live : process.writer.last? with
  | none => rfl
  | some thread => exact (accounted_run encodes execution thread live).trades

/-- There are no swaps, in the database or on their way to it. -/
theorem no_swaps (execution : Execution.run (step getenv unpack) start actions = some process) :
    committedSwaps process.trace = [] ∧ process.raydiumBatch = [] := by
  have sound := sound_run execution
  have swaps := sound.dispatched_swaps
  rw [sound.flows.dispatched_eq, List.filterMap_append, List.append_eq_nil_iff] at swaps
  have popped := swaps.1
  rw [trace] at popped
  rw [trace, raydiumBatch]
  cases live : process.writer.last? with
  | none => exact ⟨rfl, rfl⟩
  | some thread =>
      have kept := (excerpt_run execution thread live).swaps
      rw [live, Option.elim_some] at popped
      rw [popped, List.sublist_nil, List.append_eq_nil_iff] at kept
      exact kept

/-- Before the first append into a full batch, or another undefined step, in every run with memory
for the keys and whatever the database refuses, each dispatched trade is in a committed row or still
on its way, exactly once and in order, and there are no swaps. -/
theorem trades_stored_once (encodes : ∀ action ∈ actions, action.Admits FlushEnv.Encodes)
    (execution : Execution.run (step getenv unpack) start actions = some process) :
    process.dispatched.filterMap Event.trade? =
        committedTrades process.trace ++ process.pumpfunBatch ++
          (process.inFlight ++ process.contents ++ process.outbox).filterMap Event.trade? ∧
      committedSwaps process.trace = [] ∧ process.raydiumBatch = [] := by
  refine ⟨?_, no_swaps execution⟩
  rw [(sound_run execution).flows.dispatched_eq, List.filterMap_append,
    popped_trades encodes execution]

/-- A trade that the database has refused is still in the batch. -/
theorem trades_stored_once_refused :
    ∃ process, Execution.run (step onesOnly (always (tradedAt 9223372036854775808))) start
        (tradeRun (flushing false)) = some process ∧
      process.pumpfunBatch.length = 1 ∧
        process.dispatched.filterMap Event.trade? =
          committedTrades process.trace ++ process.pumpfunBatch ++
            (process.inFlight ++ process.contents ++ process.outbox).filterMap Event.trade? := by
  obtain ⟨process, execution, length, -⟩ := tradeRun_keeps
  exact ⟨process, execution, length,
    (trades_stored_once (tradeRun_encodes false) execution).1⟩

end Process

/-! ## Origins -/

namespace SubscribeUpdateTransaction

end SubscribeUpdateTransaction

namespace Process

variable {getenv : String → Option CString} {unpack : Buffer → Option SubscribeUpdate}
  {process : Process Buffer} {actions : List (ProcessAction Buffer)}

/-- Before the first append into a full batch, or another undefined step, in every run with memory
for the keys, the texts of the committed statements can be read, and what they say is followed by
the trades that are still on their way: together these are the dispatched trades, up to the
timestamps, which are not stored. -/
theorem texts_of_dispatched (encodes : ∀ action ∈ actions, action.Admits FlushEnv.Encodes)
    (execution : Execution.run (step getenv unpack) start actions = some process) :
    ∃ tables, (tradeTexts process.trace).mapM (pumpfunTable.readBack readTradeRow) = some tables ∧
      (process.dispatched.filterMap Event.trade?).map Entry.untimed =
        tables.flatten ++ (process.pumpfunBatch ++
          (process.inFlight ++ process.contents ++ process.outbox).filterMap Event.trade?).map
            Entry.untimed := by
  have read : ∃ tables,
      (tradeTexts process.trace).mapM (pumpfunTable.readBack readTradeRow) = some tables ∧
        tables.flatten = (committedTrades process.trace).map Entry.untimed := by
    rw [trace]
    cases live : process.writer.last? with
    | none => exact ⟨[], rfl, rfl⟩
    | some thread => exact (transcribed_run encodes execution thread live).readBack
  obtain ⟨tables, texts, rows⟩ := read
  refine ⟨tables, texts, ?_⟩
  rw [(sound_run execution).flows.dispatched_eq, List.filterMap_append,
    popped_trades encodes execution, rows, ← List.map_append, List.append_assoc]

theorem texts_of_dispatched_trade :
    ∃ process tables, Execution.run (step onesOnly (always (tradedAt 7))) start
        (tradeRun (flushing true)) = some process ∧
      (tradeTexts process.trace).length = 1 ∧
      (tradeTexts process.trace).mapM (pumpfunTable.readBack readTradeRow) = some tables ∧
      (process.dispatched.filterMap Event.trade?).map Entry.untimed =
        tables.flatten ++ (process.pumpfunBatch ++
          (process.inFlight ++ process.contents ++ process.outbox).filterMap Event.trade?).map
            Entry.untimed := by
  obtain ⟨process, execution, -, -, length⟩ := tradeRun_stores
  obtain ⟨tables, texts, rows⟩ := texts_of_dispatched (tradeRun_encodes true) execution
  exact ⟨process, tables, execution, length, texts, rows⟩

/-! ## A row that the database refuses -/

/-- A step that is defined has not appended into a full batch. -/
theorem bounded_preserved : Preserved (fun _ => True) (fun _ => True)
    (fun writer => writer.pumpfunBatch.length ≤ batchSize ∧ True) where
  toFlushesPreserve :=
    @FlushesPreserve.of_lengths _ (· ≤ batchSize) (fun _ => True) (Nat.zero_le batchSize) trivial
  trade := by
    intro writer event trade _ _ room _
    rw [List.length_append]
    exact ⟨room, trivial⟩
  swap := by
    intro writer event swap _ _ _ bounded
    exact bounded
  other := by
    intro writer event _ _ bounded
    exact bounded

/-- A bound of the runs that have not stored behind the array, since these are the runs of the
model; the program itself does not keep to it. -/
theorem pumpfunBatch_length_le
    (execution : Execution.run (step getenv unpack) start actions = some process) :
    process.pumpfunBatch.length ≤ batchSize := by
  rw [pumpfunBatch]
  cases live : process.writer.last? with
  | none => exact Nat.zero_le batchSize
  | some thread =>
      have bounded := writer_run bounded_preserved (fun _ bounded => bounded)
        (fun _ => ⟨Nat.zero_le batchSize, trivial⟩) (fun _ _ _ _ => trivial)
        (fun action _ => action.admits_trivial) execution thread live
      exact bounded.1

theorem Sound.length_trades (sound : process.Sound getenv unpack) :
    (process.dispatched.filterMap Event.trade?).length = process.dispatched.length := by
  rw [List.length_filterMap_eq_countP, List.countP_eq_length]
  intro event member
  obtain ⟨trade, data⟩ := sound.exists_trade member
  rw [Event.trade?, data]
  rfl

theorem inFlight_length_le (process : Process Buffer) : process.inFlight.length ≤ 1 := by
  rw [inFlight]
  cases process.writer.last? with
  | none => exact Nat.zero_le 1
  | some thread =>
      rw [Option.elim_some]
      cases thread.pc with
      | handle popped => cases popped <;> simp [WriterPc.inFlight]
      | _ => exact Nat.zero_le 1

theorem Sound.contents_length_le (sound : process.Sound getenv unpack) :
    process.contents.length ≤ (loadCapacity (getenv "YUREI_QUEUE_CAPACITY")).toNat := by
  rw [contents]
  cases live : process.queue.last? with
  | none => exact Nat.zero_le _
  | some queue =>
      rw [Option.elim_some, ← sound.capacity queue live]
      exact (sound.flows.rings queue live).length_le

/-- At every moment of a run with memory for the keys that comes before the first append into a full
batch, or another undefined step, all dispatched trades but a bounded number are in the database:
what a crash can lose is what the queue, the batch and the hands of the two threads hold. -/
theorem unstored_le (encodes : ∀ action ∈ actions, action.Admits FlushEnv.Encodes)
    (execution : Execution.run (step getenv unpack) start actions = some process) :
    process.dispatched.length ≤ (committedTrades process.trace).length + batchSize +
      (loadCapacity (getenv "YUREI_QUEUE_CAPACITY")).toNat + 2 := by
  have sound := sound_run execution
  have batch := pumpfunBatch_length_le execution
  have queue := sound.contents_length_le
  have flying := inFlight_length_le process
  have waiting := sound.waits
  have later := List.length_filterMap_le Event.trade?
    (process.inFlight ++ process.contents ++ process.outbox)
  have everything := sound.flows.dispatched_eq
  rw [← sound.length_trades, everything, List.filterMap_append, popped_trades encodes execution]
  simp only [List.length_append] at later ⊢
  omega

theorem unstored_le_refused :
    ∃ process, Execution.run (step onesOnly (always (tradedAt 9223372036854775808))) start
        (tradeRun (flushing false)) = some process ∧
      committedTrades process.trace = [] ∧
        process.dispatched.length ≤ (committedTrades process.trace).length + batchSize +
          (loadCapacity (onesOnly "YUREI_QUEUE_CAPACITY")).toNat + 2 := by
  obtain ⟨process, execution, -, none_stored, -⟩ := tradeRun_keeps
  exact ⟨process, execution, none_stored, unstored_le (tradeRun_encodes false) execution⟩

/-- When the database never commits certain rows, a popped trade with such a row stays in the
batch, and so does every later one, before the first append into a full batch or another undefined
step: nothing behind it is stored, and at most 99 more are behind it. -/
theorem refused_row_blocks {accepts : Entry PumpfunTrade → Prop}
    (encodes : ∀ action ∈ actions, action.Admits FlushEnv.Encodes)
    (execution : Execution.run (step getenv unpack) start actions = some process)
    (committed : ∀ entry ∈ committedTrades process.trace, accepts entry)
    {front back : List (Entry PumpfunTrade)} {entry : Entry PumpfunTrade}
    (popped : (poppedEvents process.trace).filterMap Event.trade? = front ++ entry :: back)
    (refused : ¬ accepts entry) :
    committedTrades process.trace <+: front ∧ entry :: back <:+ process.pumpfunBatch ∧
      back.length < batchSize := by
  have everything := popped_trades encodes execution
  rw [popped] at everything
  have room := pumpfunBatch_length_le execution
  rcases List.append_eq_append_iff.mp everything with ⟨late, stored, rest⟩ | ⟨early, rfl, batch⟩
  · cases late with
    | nil =>
        rw [List.append_nil] at stored
        rw [List.nil_append] at rest
        rw [← rest, List.length_cons] at room
        rw [stored, ← rest]
        exact ⟨List.prefix_rfl, List.suffix_rfl, room⟩
    | cons first late =>
        rw [List.cons_append, List.cons.injEq] at rest
        refine absurd (committed entry ?_) refused
        rw [stored, rest.1]
        exact List.mem_append_right front List.mem_cons_self
  · rw [batch, List.length_append, List.length_cons] at room
    rw [batch]
    exact ⟨List.prefix_append _ _, List.suffix_append _ _, by omega⟩

/-- The column of the slots holds signed 64-bit numbers. -/
def fitsBigint (entry : Entry PumpfunTrade) : Prop :=
  entry.record.slot < 9223372036854775808

theorem refused_row_blocks_bigint :
    ∃ process, Execution.run (step onesOnly (always (tradedAt 9223372036854775808))) start
        (tradeRun (flushing false)) = some process ∧
      ∃ entry, (poppedEvents process.trace).filterMap Event.trade? = [entry] ∧
        ¬ fitsBigint entry ∧ committedTrades process.trace <+: [] ∧
          [entry] <:+ process.pumpfunBatch ∧ 0 < batchSize := by
  obtain ⟨process, execution, -, none_stored, slots⟩ := tradeRun_keeps
  obtain ⟨entry, popped, slot⟩ := List.map_eq_singleton_iff.mp slots
  have refused : ¬ fitsBigint entry := by
    rw [fitsBigint, slot]
    decide
  have committed : ∀ entry ∈ committedTrades process.trace, fitsBigint entry := by
    rw [none_stored]
    exact nofun
  exact ⟨process, execution, entry, popped, refused,
    refused_row_blocks (tradeRun_encodes false) execution committed popped refused⟩

end Process

end YureiGeyser
