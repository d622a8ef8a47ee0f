import YureiGeyser.DbWriter

/-!
# Runs of the database writer

A run is a list of iterations with arbitrary answers of the database, the allocator and the clock.
The first part finds the runs whose batches stay inside their arrays, the second one accounts for
every popped event.
-/

namespace YureiGeyser

/-! ## Batches -/

namespace TraceItem

/-- The type whose batch a committed statement has stored. -/
def storedType : TraceItem → Option EventType
  | .popped _ => none
  | .storedTrades _ => some .pumpfunTrade
  | .storedSwaps _ => some .raydiumSwap

/-- The number of events of a type without a commit, after one more item. -/
def countPending (type : EventType) (pending : ℕ) : TraceItem → ℕ
  | .popped event => if event.type = type then pending + 1 else pending
  | item => if item.storedType = some type then 0 else pending

/-- The number of events of a type that were popped since the last commit of that type. -/
def pending (type : EventType) (trace : List TraceItem) : ℕ :=
  trace.foldl (countPending type) 0

theorem pending_append (type : EventType) (trace : List TraceItem) (item : TraceItem) :
    pending type (trace ++ [item]) = countPending type (pending type trace) item := by
  rw [pending, List.foldl_append]
  rfl

end TraceItem

namespace DbWriter

/-- The batches hold the events popped since the last commits and are inside their arrays. -/
structure Counted (writer : DbWriter) : Prop where
  pumpfun : writer.pumpfunBatch.length = TraceItem.pending .pumpfunTrade writer.trace
  raydium : writer.raydiumBatch.length = TraceItem.pending .raydiumSwap writer.trace
  pumpfun_le : writer.pumpfunBatch.length ≤ batchSize
  raydium_le : writer.raydiumBatch.length ≤ batchSize

end DbWriter

open TraceItem

theorem dbWriterStart_counted (lastFlush : Timeval) (metrics : Metrics) :
    (dbWriterStart lastFlush metrics).Counted :=
  ⟨rfl, rfl, Nat.zero_le _, Nat.zero_le _⟩

theorem counted_flushes : FlushesPreserve (fun _ => True) DbWriter.Counted := by
  apply FlushesPreserve.of_outcomes
  case kept =>
    intro writer conn metrics _ counted
    exact ⟨counted.pumpfun, counted.raydium, counted.pumpfun_le, counted.raydium_le⟩
  case commitTrades =>
    intro env writer conn middle query _ _ _ counted
    refine ⟨?_, ?_, Nat.zero_le _, counted.raydium_le⟩
    · rw [DbWriter.commitTrades, pending_append]
      rfl
    · rw [DbWriter.commitTrades, pending_append]
      exact counted.raydium
  case commitSwaps =>
    intro env writer conn middle query _ _ _ counted
    refine ⟨?_, ?_, counted.pumpfun_le, Nat.zero_le _⟩
    · rw [DbWriter.commitSwaps, pending_append]
      exact counted.pumpfun
    · rw [DbWriter.commitSwaps, pending_append]
      rfl
  case lastFlush =>
    intro writer tv counted
    exact ⟨counted.pumpfun, counted.raydium, counted.pumpfun_le, counted.raydium_le⟩

theorem counted_preserved :
    Preserved (fun _ => True) (fun _ => True) DbWriter.Counted where
  toFlushesPreserve := counted_flushes
  trade := by
    intro writer event trade _ data room counted
    have type : event.type = .pumpfunTrade := by rw [Event.type, data]
    refine ⟨?_, ?_, ?_, counted.raydium_le⟩
    · simp only [DbWriter.pop, pending_append, countPending, type, List.length_append,
        List.length_singleton, counted.pumpfun, if_true]
    · simp only [DbWriter.pop, pending_append, countPending, type, counted.raydium]
      rfl
    · rw [List.length_append]
      exact room
  swap := by
    intro writer event swap _ data room counted
    have type : event.type = .raydiumSwap := by rw [Event.type, data]
    refine ⟨?_, ?_, counted.pumpfun_le, ?_⟩
    · simp only [DbWriter.pop, pending_append, countPending, type, counted.pumpfun]
      rfl
    · simp only [DbWriter.pop, pending_append, countPending, type, List.length_append,
        List.length_singleton, counted.raydium, if_true]
    · rw [List.length_append]
      exact room
  other := by
    intro writer event _ data counted
    have type : event.type = .none := by rw [Event.type, data]
    refine ⟨?_, ?_, counted.pumpfun_le, counted.raydium_le⟩
    · simp only [DbWriter.pop, pending_append, countPending, type]
      exact counted.pumpfun
    · simp only [DbWriter.pop, pending_append, countPending, type]
      exact counted.raydium

/-- The batches of all writers on the way of a run that is never undefined are in their arrays. -/
def BatchesBounded (start : DbWriter) (envs : List Iteration) : Prop :=
  ∃ final, Execution.run writerStep start envs = some final ∧
    ∀ before after writer, envs = before ++ after →
      Execution.run writerStep start before = some writer →
        writer.pumpfunBatch.length ≤ batchSize ∧ writer.raydiumBatch.length ≤ batchSize

/-- The next event that an iteration pops finds its type with fewer than `BATCH_SIZE` events popped
since the last commit of that type. -/
def NextFits (writer : DbWriter) (env : Iteration) : Prop :=
  ∀ event, env.popped = some event → event.type ≠ .none →
    pending event.type writer.trace < batchSize

/-- An iteration is defined exactly when the event that it pops fits. -/
theorem iteration_ok_iff {writer : DbWriter} (counted : writer.Counted) (env : Iteration) :
    (∃ next, iteration env writer = .ok next) ↔ NextFits writer env := by
  rw [iteration, NextFits]
  cases env.popped with
  | none =>
      simp only [reduceCtorEq, false_implies, implies_true, iff_true]
      exact flushOnTimer_ok env writer
  | some event =>
      have stores := storeEvent_ok_iff env event (writer.pop event)
      have fits : (writer.pop event).count event.type < batchSize ↔
          (event.type ≠ .none → pending event.type writer.trace < batchSize) := by
        cases event.type with
        | none => exact ⟨fun _ absurd => (absurd rfl).elim, fun _ => Nat.zero_lt_succ 99⟩
        | pumpfunTrade =>
            rw [← counted.pumpfun]
            exact ⟨fun room _ => room, fun room => room EventType.noConfusion⟩
        | raydiumSwap =>
            rw [← counted.raydium]
            exact ⟨fun room _ => room, fun room => room EventType.noConfusion⟩
      constructor
      · rintro ⟨next, iterated⟩ other same
        cases same
        obtain ⟨middle, stored, -⟩ := bind_ok iterated
        exact fits.mp (stores.mp ⟨middle, stored⟩)
      · intro nextFits
        obtain ⟨middle, stored⟩ := stores.mpr (fits.mpr (nextFits event rfl))
        obtain ⟨next, flushed⟩ := flushOnTimer_ok env middle
        refine ⟨next, ?_⟩
        simp only [stored]
        exact flushed

/-- The writers of a run are counted. -/
theorem run_counted {start writer : DbWriter} {envs : List Iteration} (initially : start.Counted)
    (execution : Execution.run writerStep start envs = some writer) : writer.Counted :=
  writerRun_preserves counted_preserved (fun _ _ => ⟨trivial, trivial, trivial⟩)
    (fun _ _ _ _ => trivial) initially execution

/-- A run stays inside the arrays exactly when no event of a type is popped once `BATCH_SIZE` events
of that type have been popped since the last commit of that type. -/
theorem batchesBounded_iff (lastFlush : Timeval) (metrics : Metrics) (envs : List Iteration) :
    BatchesBounded (dbWriterStart lastFlush metrics) envs ↔
      ∀ before env after writer, envs = before ++ env :: after →
        Execution.run writerStep (dbWriterStart lastFlush metrics) before = some writer →
          NextFits writer env := by
  have initially := dbWriterStart_counted lastFlush metrics
  constructor
  · rintro ⟨final, execution, -⟩ before env after writer rfl reached
    obtain ⟨middle, front, back⟩ := Execution.run_append_eq_some.mp execution
    rw [reached] at front
    cases front
    obtain ⟨next, stepped, -⟩ := Execution.run_cons_eq_some.mp back
    exact (iteration_ok_iff (run_counted initially reached) env).mp
      ⟨next, writerStep_eq_some.mp stepped⟩
  · intro fits
    have bounded : ∀ before after writer, envs = before ++ after →
        Execution.run writerStep (dbWriterStart lastFlush metrics) before = some writer →
          writer.pumpfunBatch.length ≤ batchSize ∧ writer.raydiumBatch.length ≤ batchSize := by
      intro before after writer _ reached
      have counted := run_counted initially reached
      exact ⟨counted.pumpfun_le, counted.raydium_le⟩
    suffices defined : ∃ final,
        Execution.run writerStep (dbWriterStart lastFlush metrics) envs = some final by
      obtain ⟨final, execution⟩ := defined
      exact ⟨final, execution, bounded⟩
    clear bounded
    induction envs using List.reverseRecOn with
    | nil => exact ⟨dbWriterStart lastFlush metrics, rfl⟩
    | append_singleton before env ih =>
        have earlier : ∃ writer,
            Execution.run writerStep (dbWriterStart lastFlush metrics) before = some writer := by
          apply ih
          intro front middle back writer split
          apply fits front middle (back ++ [env]) writer
          rw [split, List.append_assoc, List.cons_append]
        obtain ⟨writer, reached⟩ := earlier
        have nextFits := fits before env [] writer rfl reached
        obtain ⟨next, iterated⟩ :=
          (iteration_ok_iff (run_counted initially reached) env).mpr nextFits
        refine ⟨next, Execution.run_append_eq_some.mpr ⟨writer, reached, ?_⟩⟩
        rw [Execution.run_singleton]
        exact writerStep_eq_some.mpr iterated

/-- A flush whose connection is refused. -/
def refusedFlush : FlushEnv where
  connectOk := false
  statusOk := false
  startTime := ⟨0, 0⟩
  mallocOk := true
  alloc := fun _ _ => true
  execOk := true
  endTime := ⟨0, 0⟩

/-- An iteration that pops a trade while the database is down. -/
def refusedIteration : Iteration where
  popped := some
    { Event.zero with
      data := .pumpfunTrade ⟨Pubkey.zero, Pubkey.zero, Pubkey.zero, 0, 0, false, 0, 0, 0, 0, 0, 0, 0,
        0, 0, 0⟩ }
  sizeFlush := refusedFlush
  now := ⟨0, 0⟩
  timerFlush := ⟨refusedFlush, refusedFlush, ⟨0, 0⟩⟩

/-- The trade after the first hundred is stored behind the array when the database is down. -/
theorem not_batchesBounded_refused :
    ¬ BatchesBounded (dbWriterStart ⟨0, 0⟩ Metrics.init) (List.replicate 101 refusedIteration) := by
  rintro ⟨final, execution, -⟩
  have undefined : (Execution.run writerStep (dbWriterStart ⟨0, 0⟩ Metrics.init)
      (List.replicate 101 refusedIteration)).isNone = true := by
    decide +kernel
  rw [execution] at undefined
  cases undefined

/-! ## Accounts -/

/-- The popped events. -/
def poppedEvents (trace : List TraceItem) : List Event :=
  trace.filterMap fun
    | .popped event => some event
    | _ => none

/-- The entry of a PumpFun event. -/
def Event.trade? (event : Event) : Option (Entry PumpfunTrade) :=
  match event.data with
  | .pumpfunTrade trade => some (event.entry trade)
  | _ => none

/-- The entry of a Raydium event. -/
def Event.swap? (event : Event) : Option (Entry RaydiumSwap) :=
  match event.data with
  | .raydiumSwap swap => some (event.entry swap)
  | _ => none

/-- The rows of the committed PumpFun statements. -/
def committedTrades (trace : List TraceItem) : List (Entry PumpfunTrade) :=
  trace.flatMap fun
    | .storedTrades query => query.rows
    | _ => []

/-- The rows of the committed Raydium statements. -/
def committedSwaps (trace : List TraceItem) : List (Entry RaydiumSwap) :=
  trace.flatMap fun
    | .storedSwaps query => query.rows
    | _ => []

/-- The number of committed statements. -/
def commits (trace : List TraceItem) : ℕ :=
  trace.countP fun item => item.storedType.isSome

theorem poppedEvents_append (front back : List TraceItem) :
    poppedEvents (front ++ back) = poppedEvents front ++ poppedEvents back :=
  List.filterMap_append

theorem committedTrades_append (front back : List TraceItem) :
    committedTrades (front ++ back) = committedTrades front ++ committedTrades back :=
  List.flatMap_append

theorem committedSwaps_append (front back : List TraceItem) :
    committedSwaps (front ++ back) = committedSwaps front ++ committedSwaps back :=
  List.flatMap_append

theorem commits_append (front back : List TraceItem) :
    commits (front ++ back) = commits front + commits back :=
  List.countP_append

/-- Every popped event is in a committed row or in a batch, and the counters agree. -/
structure Accounted (writer : DbWriter) : Prop where
  trades : (poppedEvents writer.trace).filterMap Event.trade? =
    committedTrades writer.trace ++ writer.pumpfunBatch
  swaps : (poppedEvents writer.trace).filterMap Event.swap? =
    committedSwaps writer.trace ++ writer.raydiumBatch
  eventsTotal : writer.metrics.eventsTotal = writer.metrics.dbInsertsSuccess +
    UInt64.ofNat writer.pumpfunBatch.length + UInt64.ofNat writer.raydiumBatch.length
  success : writer.metrics.dbInsertsSuccess =
    writer.metrics.eventsPumpfun + writer.metrics.eventsRaydium
  batches : writer.metrics.dbBatches = UInt64.ofNat (commits writer.trace)

theorem dbWriterStart_accounted (lastFlush : Timeval) :
    Accounted (dbWriterStart lastFlush Metrics.init) :=
  ⟨rfl, rfl, rfl, rfl, rfl⟩

/-- Counting a number of stored PumpFun events. -/
theorem iterate_incPumpfun (number : ℕ) (metrics : Metrics) :
    (fun metrics : Metrics => metrics.incDbSuccess.incPumpfun)^[number] metrics =
      { metrics with
        dbInsertsSuccess := metrics.dbInsertsSuccess + UInt64.ofNat number
        eventsPumpfun := metrics.eventsPumpfun + UInt64.ofNat number } := by
  induction number with
  | zero => simp
  | succ number ih =>
      rw [Function.iterate_succ_apply', ih, UInt64.ofNat_add]
      simp only [Metrics.incDbSuccess, Metrics.incPumpfun, UInt64.add_assoc]
      rfl

/-- Counting a number of stored Raydium events. -/
theorem iterate_incRaydium (number : ℕ) (metrics : Metrics) :
    (fun metrics : Metrics => metrics.incDbSuccess.incRaydium)^[number] metrics =
      { metrics with
        dbInsertsSuccess := metrics.dbInsertsSuccess + UInt64.ofNat number
        eventsRaydium := metrics.eventsRaydium + UInt64.ofNat number } := by
  induction number with
  | zero => simp
  | succ number ih =>
      rw [Function.iterate_succ_apply', ih, UInt64.ofNat_add]
      simp only [Metrics.incDbSuccess, Metrics.incRaydium, UInt64.add_assoc]
      rfl

/-- A flush that keeps its batch keeps the accounts. -/
theorem Accounted.kept {writer : DbWriter} (accounted : Accounted writer) {metrics : Metrics}
    (accounts : writer.metrics.SameAccounts metrics) (conn : Bool) :
    Accounted { writer with conn, metrics } where
  trades := accounted.trades
  swaps := accounted.swaps
  eventsTotal := by
    rw [accounts.eventsTotal, accounts.dbInsertsSuccess]
    exact accounted.eventsTotal
  success := by
    rw [accounts.dbInsertsSuccess, accounts.eventsPumpfun, accounts.eventsRaydium]
    exact accounted.success
  batches := by
    rw [accounts.dbBatches]
    exact accounted.batches

theorem Accounted.commitTrades {writer : DbWriter} (accounted : Accounted writer)
    {middle : Metrics} (accounts : writer.metrics.SameAccounts middle) (conn : Bool)
    {query : Query PumpfunTrade} (rows : query.rows = writer.pumpfunBatch) :
    Accounted (writer.commitTrades conn middle query) where
  trades := by
    simp only [DbWriter.commitTrades, poppedEvents_append, committedTrades_append,
      List.filterMap_append, accounted.trades]
    simp [poppedEvents, committedTrades, rows]
  swaps := by
    simp only [DbWriter.commitTrades, poppedEvents_append, committedSwaps_append,
      List.filterMap_append, accounted.swaps]
    simp [poppedEvents, committedSwaps]
  eventsTotal := by
    rw [DbWriter.commitTrades, iterate_incPumpfun]
    simp only [Metrics.incDbBatch, accounts.eventsTotal, accounts.dbInsertsSuccess,
      accounted.eventsTotal, List.length_nil]
    simp
  success := by
    rw [DbWriter.commitTrades, iterate_incPumpfun]
    simp only [Metrics.incDbBatch, accounts.dbInsertsSuccess, accounts.eventsPumpfun,
      accounts.eventsRaydium, accounted.success, UInt64.add_assoc]
    rw [UInt64.add_comm writer.metrics.eventsRaydium]
  batches := by
    rw [DbWriter.commitTrades, iterate_incPumpfun, commits_append, UInt64.ofNat_add,
      ← accounted.batches, ← accounts.dbBatches]
    rfl

theorem Accounted.commitSwaps {writer : DbWriter} (accounted : Accounted writer)
    {middle : Metrics} (accounts : writer.metrics.SameAccounts middle) (conn : Bool)
    {query : Query RaydiumSwap} (rows : query.rows = writer.raydiumBatch) :
    Accounted (writer.commitSwaps conn middle query) where
  trades := by
    simp only [DbWriter.commitSwaps, poppedEvents_append, committedTrades_append,
      List.filterMap_append, accounted.trades]
    simp [poppedEvents, committedTrades]
  swaps := by
    simp only [DbWriter.commitSwaps, poppedEvents_append, committedSwaps_append,
      List.filterMap_append, accounted.swaps]
    simp [poppedEvents, committedSwaps, rows]
  eventsTotal := by
    rw [DbWriter.commitSwaps, iterate_incRaydium]
    simp only [Metrics.incDbBatch, accounts.eventsTotal, accounts.dbInsertsSuccess,
      accounted.eventsTotal, List.length_nil, UInt64.add_assoc]
    rw [UInt64.add_comm (UInt64.ofNat writer.pumpfunBatch.length)]
    simp
  success := by
    rw [DbWriter.commitSwaps, iterate_incRaydium]
    simp only [Metrics.incDbBatch, accounts.dbInsertsSuccess, accounts.eventsPumpfun,
      accounts.eventsRaydium, accounted.success, UInt64.add_assoc]
  batches := by
    rw [DbWriter.commitSwaps, iterate_incRaydium, commits_append, UInt64.ofNat_add,
      ← accounted.batches, ← accounts.dbBatches]
    rfl

section Pop

variable {writer : DbWriter}

theorem Accounted.trades_pop (accounted : Accounted writer) (event : Event) :
    (poppedEvents (writer.pop event).trace).filterMap Event.trade? =
      committedTrades (writer.pop event).trace ++ (writer.pumpfunBatch ++ event.trade?.toList) := by
  rw [DbWriter.pop, poppedEvents_append, List.filterMap_append, accounted.trades,
    committedTrades_append, List.append_assoc]
  simp only [poppedEvents, committedTrades, List.filterMap_cons, List.filterMap_nil,
    List.flatMap_cons, List.flatMap_nil, List.append_nil]
  cases event.trade? <;> rfl

theorem Accounted.swaps_pop (accounted : Accounted writer) (event : Event) :
    (poppedEvents (writer.pop event).trace).filterMap Event.swap? =
      committedSwaps (writer.pop event).trace ++ (writer.raydiumBatch ++ event.swap?.toList) := by
  rw [DbWriter.pop, poppedEvents_append, List.filterMap_append, accounted.swaps,
    committedSwaps_append, List.append_assoc]
  simp only [poppedEvents, committedSwaps, List.filterMap_cons, List.filterMap_nil,
    List.flatMap_cons, List.flatMap_nil, List.append_nil]
  cases event.swap? <;> rfl

theorem Accounted.eventsTotal_pop (accounted : Accounted writer) (event : Event) :
    (writer.pop event).metrics.eventsTotal = writer.metrics.dbInsertsSuccess +
      UInt64.ofNat writer.pumpfunBatch.length + UInt64.ofNat writer.raydiumBatch.length + 1 := by
  rw [← accounted.eventsTotal]
  rfl

theorem Accounted.batches_pop (accounted : Accounted writer) (event : Event) :
    (writer.pop event).metrics.dbBatches = UInt64.ofNat (commits (writer.pop event).trace) := by
  rw [DbWriter.pop, commits_append]
  exact accounted.batches

end Pop

/-- The flushes keep the accounts when no key is skipped. -/
theorem accounted_flushes :
    FlushesPreserve (fun env => ∀ row key, env.alloc row key = true) Accounted := by
  apply FlushesPreserve.of_outcomes
  case kept =>
    intro writer conn metrics accounts accounted
    exact accounted.kept accounts conn
  case commitTrades =>
    intro env writer conn middle query allocates accounts rows accounted
    exact accounted.commitTrades accounts conn (rows allocates)
  case commitSwaps =>
    intro env writer conn middle query allocates accounts rows accounted
    exact accounted.commitSwaps accounts conn (rows allocates)
  case lastFlush =>
    intro writer tv accounted
    exact ⟨accounted.trades, accounted.swaps, accounted.eventsTotal, accounted.success,
      accounted.batches⟩

/-- Every part of an iteration keeps the accounts when no key is skipped and every event has a
type. -/
theorem accounted_preserved :
    Preserved (fun env => ∀ row key, env.alloc row key = true) (fun event => event.type ≠ .none)
      Accounted where
  toFlushesPreserve := accounted_flushes
  trade := by
    intro writer event trade _ data _ accounted
    have isTrade : event.trade? = some (event.entry trade) := by rw [Event.trade?, data]
    have isSwap : event.swap? = none := by rw [Event.swap?, data]
    have trades := accounted.trades_pop event
    have swaps := accounted.swaps_pop event
    rw [isTrade] at trades
    rw [isSwap, Option.toList_none, List.append_nil] at swaps
    refine ⟨trades, swaps, ?_, accounted.success, accounted.batches_pop event⟩
    have one : UInt64.ofNat 1 = 1 := rfl
    rw [List.length_append, List.length_singleton, UInt64.ofNat_add, one,
      accounted.eventsTotal_pop event]
    change _ = writer.metrics.dbInsertsSuccess + _ + _
    ac_rfl
  swap := by
    intro writer event swap _ data _ accounted
    have isTrade : event.trade? = none := by rw [Event.trade?, data]
    have isSwap : event.swap? = some (event.entry swap) := by rw [Event.swap?, data]
    have trades := accounted.trades_pop event
    have swaps := accounted.swaps_pop event
    rw [isTrade, Option.toList_none, List.append_nil] at trades
    rw [isSwap] at swaps
    refine ⟨trades, swaps, ?_, accounted.success, accounted.batches_pop event⟩
    have one : UInt64.ofNat 1 = 1 := rfl
    rw [List.length_append, List.length_singleton, UInt64.ofNat_add, one,
      accounted.eventsTotal_pop event]
    change _ = writer.metrics.dbInsertsSuccess + _ + _
    ac_rfl
  other := by
    intro writer event typed data _
    rw [Event.type, data] at typed
    exact absurd rfl typed

/-- At the head of the loop, as long as no event was stored behind an array, the popped events of
each type are the committed rows followed by the batch, and the counters say so. -/
theorem writer_accounted {lastFlush : Timeval} {envs : List Iteration} {writer : DbWriter}
    (allocates : ∀ env ∈ envs, env.Admits fun flush => ∀ row key, flush.alloc row key = true)
    (typed : ∀ env ∈ envs, ∀ event, env.popped = some event → event.type ≠ .none)
    (execution : Execution.run writerStep (dbWriterStart lastFlush Metrics.init) envs =
      some writer) : Accounted writer :=
  writerRun_preserves accounted_preserved allocates typed (dbWriterStart_accounted lastFlush)
    execution

/-- An iteration without an event that finds the database up again. -/
def recoveredIteration : Iteration where
  popped := none
  sizeFlush := refusedFlush
  now := ⟨1, 0⟩
  timerFlush :=
    { pumpfun := { refusedFlush with connectOk := true, statusOk := true }
      raydium := { refusedFlush with connectOk := true, statusOk := true }
      lastFlush := ⟨1, 0⟩ }

/-- Two trades that are stored after the database has come back. -/
theorem writer_accounted_recovery :
    ∃ writer, Execution.run writerStep (dbWriterStart ⟨0, 0⟩ Metrics.init)
        [refusedIteration, refusedIteration, recoveredIteration] = some writer ∧
      writer.metrics.dbInsertsSuccess = 2 ∧ writer.metrics.dbBatches = 1 ∧ Accounted writer := by
  have counters : (Execution.run writerStep (dbWriterStart ⟨0, 0⟩ Metrics.init)
      [refusedIteration, refusedIteration, recoveredIteration]).map (fun writer =>
        (writer.metrics.dbInsertsSuccess, writer.metrics.dbBatches)) = some (2, 1) := by
    decide +kernel
  obtain ⟨writer, execution, counts⟩ := Option.map_eq_some_iff.mp counters
  rw [Prod.mk.injEq] at counts
  refine ⟨writer, execution, counts.1, counts.2, writer_accounted ?_ ?_ execution⟩
  · intro env member
    simp only [List.mem_cons, List.not_mem_nil, or_false, or_self_left] at member
    rcases member with rfl | rfl
    · exact ⟨fun _ _ => rfl, fun _ _ => rfl, fun _ _ => rfl⟩
    · exact ⟨fun _ _ => rfl, fun _ _ => rfl, fun _ _ => rfl⟩
  · intro env member event popped
    simp only [List.mem_cons, List.not_mem_nil, or_false, or_self_left] at member
    rcases member with rfl | rfl
    · cases popped
      exact EventType.noConfusion
    · cases popped

/-! ## One iteration -/

/-- A flush pops nothing. -/
theorem popped_preserved (events : List Event) :
    FlushesPreserve (fun _ => True) (fun writer => poppedEvents writer.trace = events) := by
  apply FlushesPreserve.of_outcomes
  case kept =>
    intro writer conn metrics _ popped
    exact popped
  case commitTrades =>
    intro env writer conn middle query _ _ _ popped
    rw [DbWriter.commitTrades, poppedEvents_append, popped]
    exact List.append_nil events
  case commitSwaps =>
    intro env writer conn middle query _ _ _ popped
    rw [DbWriter.commitSwaps, poppedEvents_append, popped]
    exact List.append_nil events
  case lastFlush =>
    intro writer tv popped
    exact popped

/-- Storing an event pops nothing more. -/
theorem storeEvent_popped {env : Iteration} {event : Event} {writer next : DbWriter}
    (stored : storeEvent env event writer = .ok next) :
    poppedEvents next.trace = poppedEvents writer.trace := by
  have preserved := popped_preserved (poppedEvents writer.trace)
  rcases storeEvent_cases stored with ⟨trade, -, -, outcome⟩ | ⟨swap, -, -, outcome⟩ | ⟨-, rfl⟩
  · rcases outcome with ⟨-, flushed⟩ | ⟨-, rfl⟩
    · exact preserved.flushPumpfun env.sizeFlush _ next trivial (by rfl) flushed
    · rfl
  · rcases outcome with ⟨-, flushed⟩ | ⟨-, rfl⟩
    · exact preserved.flushRaydium env.sizeFlush _ next trivial (by rfl) flushed
    · rfl
  · rfl

/-- An iteration pops the event that the queue returns. -/
theorem iteration_popped {env : Iteration} {writer next : DbWriter}
    (iterated : iteration env writer = .ok next) :
    poppedEvents next.trace = poppedEvents writer.trace ++ env.popped.toList := by
  have admits : env.Admits (fun _ => True) := ⟨trivial, trivial, trivial⟩
  rw [iteration] at iterated
  cases popped : env.popped with
  | none =>
      rw [popped] at iterated
      rw [Option.toList_none, List.append_nil]
      exact flushOnTimer_preserves (popped_preserved _) admits rfl iterated
  | some event =>
      rw [popped] at iterated
      obtain ⟨middle, stored, rest⟩ := bind_ok iterated
      have added : poppedEvents (writer.pop event).trace = poppedEvents writer.trace ++ [event] := by
        rw [DbWriter.pop, poppedEvents_append]
        rfl
      rw [flushOnTimer_preserves (popped_preserved _) admits rfl rest, storeEvent_popped stored,
        added, Option.toList_some]

/-- When every answer is favourable, flushing all batches empties them. -/
theorem flushAllBatches_healthy {env : FlushAllEnv} (pumpfun : env.pumpfun.Healthy)
    (raydium : env.raydium.Healthy) {writer next : DbWriter}
    (flushed : flushAllBatches env writer = .ok next) :
    next.pumpfunBatch = [] ∧ next.raydiumBatch = [] := by
  obtain ⟨first, flushedPumpfun, rest⟩ := bind_ok flushed
  obtain ⟨second, flushedRaydium, done⟩ := bind_ok rest
  cases done
  obtain ⟨result, outcome, settled⟩ := flushPumpfunBatch_ok env.pumpfun writer
  obtain ⟨result', outcome', settled'⟩ := flushRaydiumBatch_ok env.raydium first
  rw [settled] at flushedPumpfun
  rw [settled'] at flushedRaydium
  cases flushedPumpfun
  cases flushedRaydium
  exact ⟨outcome.batch_eq_nil pumpfun, outcome'.batch_eq_nil raydium⟩

end YureiGeyser
