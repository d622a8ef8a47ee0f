import YureiGeyser.Metrics
import YureiGeyser.Statement
import YureiGeyser.Library.Execution

/-!
# The database writer

The flush functions and one iteration of the loop of `db_writer_main`.  What libpq, the allocator
and the clock answer is an input of the iteration.  The trace of popped events and committed
statements is not part of the program.
-/

namespace YureiGeyser

/-- `BATCH_SIZE`. -/
def batchSize : ℕ := 100

/-- `FLUSH_INTERVAL_MS`. -/
def flushIntervalMs : UInt64 := 50

/-- `struct timeval`. -/
structure Timeval where
  tvSec : ℤ
  tvUsec : ℤ

/-- `get_time_ms` for one reading of the clock. -/
def getTimeMs (tv : Timeval) : UInt64 :=
  UInt64.ofInt tv.tvSec * 1000 + UInt64.ofInt (tv.tvUsec.tdiv 1000)

/-- What the environment answers during one call of a flush function. -/
structure FlushEnv where
  /-- The status of a connection that `PQconnectdb` has just returned is good. -/
  connectOk : Bool
  /-- The status of a connection that was kept is good. -/
  statusOk : Bool
  startTime : Timeval
  mallocOk : Bool
  /-- The allocation for a key of a row inside `base58_encode` succeeds. -/
  alloc : ℕ → ℕ → Bool
  /-- `PQexec` reports `PGRES_COMMAND_OK`. -/
  execOk : Bool
  endTime : Timeval

/-- `ensure_connection`: the return value, whether a connection is kept, and the counters. -/
def ensureConnection (env : FlushEnv) (conn : Bool) (metrics : Metrics) : Bool × Bool × Metrics :=
  let statusOk := if conn then env.statusOk else env.connectOk
  let metrics := if !conn && env.connectOk then metrics.incDbReconnect else metrics
  if statusOk then (true, true, metrics) else (false, false, metrics)

/-- The outcome of a flush function. -/
structure Flushed (α : Type) where
  /-- The return value. -/
  ok : Bool
  conn : Bool
  batch : List (Entry α)
  metrics : Metrics
  /-- The statement that was committed. -/
  committed : Option (Query α)

/-- What both flush functions do; `count` counts a stored event of the type. -/
def flushBatch {α : Type} (table : Table α) (count : Metrics → Metrics) (env : FlushEnv)
    (conn : Bool) (batch : List (Entry α)) (metrics : Metrics) : Except Fault (Flushed α) :=
  if batch.length = 0 then
    .ok { ok := true, conn, batch, metrics, committed := none }
  else
    let (connected, conn, metrics) := ensureConnection env conn metrics
    if !connected then
      .ok { ok := false, conn, batch, metrics, committed := none }
    else
      let startTime := getTimeMs env.startTime
      if !env.mallocOk then
        .ok { ok := false, conn, batch, metrics, committed := none }
      else do
        let query ← table.buildQuery env.alloc batch
        let latency := getTimeMs env.endTime - startTime
        let metrics := metrics.addDbLatency (latency * 1000)
        if !env.execOk then
          return { ok := false, conn, batch, metrics := metrics.incDbFailed, committed := none }
        else
          let metrics := (fun metrics => count metrics.incDbSuccess)^[batch.length] metrics
          return { ok := true, conn, batch := [], metrics := metrics.incDbBatch,
                   committed := some query }

/-- What the writer has done, in order. -/
inductive TraceItem
  | popped (event : Event)
  | storedTrades (query : Query PumpfunTrade)
  | storedSwaps (query : Query RaydiumSwap)

/-- `struct db_writer` with the counters and the trace.  The counts of the batches are their
lengths. -/
structure DbWriter where
  conn : Bool
  pumpfunBatch : List (Entry PumpfunTrade)
  raydiumBatch : List (Entry RaydiumSwap)
  lastFlush : Timeval
  metrics : Metrics
  trace : List TraceItem

/-- The writer when its thread enters the loop. -/
def dbWriterStart (lastFlush : Timeval) (metrics : Metrics) : DbWriter where
  conn := false
  pumpfunBatch := []
  raydiumBatch := []
  lastFlush := lastFlush
  metrics := metrics
  trace := []

/-- The writer after a flush of its PumpFun batch. -/
def DbWriter.settlePumpfun (writer : DbWriter) (flushed : Flushed PumpfunTrade) : DbWriter :=
  { writer with
    conn := flushed.conn
    pumpfunBatch := flushed.batch
    metrics := flushed.metrics
    trace := writer.trace ++ (flushed.committed.map TraceItem.storedTrades).toList }

/-- The writer after a flush of its Raydium batch. -/
def DbWriter.settleRaydium (writer : DbWriter) (flushed : Flushed RaydiumSwap) : DbWriter :=
  { writer with
    conn := flushed.conn
    raydiumBatch := flushed.batch
    metrics := flushed.metrics
    trace := writer.trace ++ (flushed.committed.map TraceItem.storedSwaps).toList }

/-- `flush_pumpfun_batch`; its callers ignore the return value. -/
def flushPumpfunBatch (env : FlushEnv) (writer : DbWriter) : Except Fault DbWriter :=
  (flushBatch pumpfunTable Metrics.incPumpfun env writer.conn writer.pumpfunBatch
    writer.metrics).map writer.settlePumpfun

/-- `flush_raydium_batch`; its callers ignore the return value. -/
def flushRaydiumBatch (env : FlushEnv) (writer : DbWriter) : Except Fault DbWriter :=
  (flushBatch raydiumTable Metrics.incRaydium env writer.conn writer.raydiumBatch
    writer.metrics).map writer.settleRaydium

/-- What the environment answers during one call of `flush_all_batches`. -/
structure FlushAllEnv where
  pumpfun : FlushEnv
  raydium : FlushEnv
  lastFlush : Timeval

/-- `flush_all_batches`. -/
def flushAllBatches (env : FlushAllEnv) (writer : DbWriter) : Except Fault DbWriter := do
  let writer ← flushPumpfunBatch env.pumpfun writer
  let writer ← flushRaydiumBatch env.raydium writer
  return { writer with lastFlush := env.lastFlush }

/-- `should_flush_timer`. -/
def shouldFlushTimer (now : Timeval) (writer : DbWriter) : Bool :=
  let elapsedMs := UInt64.ofInt ((now.tvSec - writer.lastFlush.tvSec) * 1000 +
    (now.tvUsec - writer.lastFlush.tvUsec).tdiv 1000)
  elapsedMs ≥ flushIntervalMs

/-- `writer->pumpfun_batch[writer->pumpfun_count++] = event`. -/
def appendPumpfun (event : Entry PumpfunTrade) (writer : DbWriter) : Except Fault DbWriter :=
  if writer.pumpfunBatch.length < batchSize then
    .ok { writer with pumpfunBatch := writer.pumpfunBatch ++ [event] }
  else .error .outOfBounds

/-- `writer->raydium_batch[writer->raydium_count++] = event`. -/
def appendRaydium (event : Entry RaydiumSwap) (writer : DbWriter) : Except Fault DbWriter :=
  if writer.raydiumBatch.length < batchSize then
    .ok { writer with raydiumBatch := writer.raydiumBatch ++ [event] }
  else .error .outOfBounds

/-- What the environment answers during one iteration of the loop. -/
structure Iteration where
  /-- The event that `event_queue_pop` returns, unless it returns false. -/
  popped : Option Event
  /-- The flush that a full batch triggers. -/
  sizeFlush : FlushEnv
  now : Timeval
  /-- The flush that the timer triggers. -/
  timerFlush : FlushAllEnv

/-- The timer at the end of an iteration. -/
def flushOnTimer (env : Iteration) (writer : DbWriter) : Except Fault DbWriter :=
  if shouldFlushTimer env.now writer then flushAllBatches env.timerFlush writer else .ok writer

/-- The `switch` over the type of a popped event. -/
def storeEvent (env : Iteration) (event : Event) (writer : DbWriter) : Except Fault DbWriter :=
  match event.data with
  | .pumpfunTrade trade => do
      let writer ← appendPumpfun (event.entry trade) writer
      if writer.pumpfunBatch.length ≥ batchSize then flushPumpfunBatch env.sizeFlush writer
      else return writer
  | .raydiumSwap swap => do
      let writer ← appendRaydium (event.entry swap) writer
      if writer.raydiumBatch.length ≥ batchSize then flushRaydiumBatch env.sizeFlush writer
      else return writer
  | .none => .ok writer

/-- A popped event is counted. -/
def DbWriter.pop (event : Event) (writer : DbWriter) : DbWriter :=
  { writer with
    metrics := writer.metrics.incEventsTotal
    trace := writer.trace ++ [.popped event] }

/-- One iteration of the loop of `db_writer_main`. -/
def iteration (env : Iteration) (writer : DbWriter) : Except Fault DbWriter :=
  match env.popped with
  | none => flushOnTimer env writer
  | some event => do
      let writer ← storeEvent env event (writer.pop event)
      flushOnTimer env writer

/-- An iteration as a step of a run; an undefined one has no result. -/
def writerStep (writer : DbWriter) (env : Iteration) : Option DbWriter :=
  (iteration env writer).toOption

theorem toOption_eq_some {α : Type} {result : Except Fault α} {value : α} :
    result.toOption = some value ↔ result = .ok value := by
  cases result with
  | error fault =>
      constructor
      · intro absurd
        cases absurd
      · intro absurd
        cases absurd
  | ok result =>
      constructor
      · intro same
        cases same
        rfl
      · intro same
        cases same
        rfl

theorem writerStep_eq_some {writer next : DbWriter} {env : Iteration} :
    writerStep writer env = some next ↔ iteration env writer = .ok next :=
  toOption_eq_some

/-! ## Flushes -/

/-- The counters of the accounts are the same. -/
structure Metrics.SameAccounts (before after : Metrics) : Prop where
  eventsTotal : after.eventsTotal = before.eventsTotal
  eventsPumpfun : after.eventsPumpfun = before.eventsPumpfun
  eventsRaydium : after.eventsRaydium = before.eventsRaydium
  dbInsertsSuccess : after.dbInsertsSuccess = before.dbInsertsSuccess
  dbBatches : after.dbBatches = before.dbBatches

theorem Metrics.SameAccounts.refl (metrics : Metrics) : metrics.SameAccounts metrics :=
  ⟨rfl, rfl, rfl, rfl, rfl⟩

/-- Every answer is the favourable one. -/
structure FlushEnv.Healthy (env : FlushEnv) : Prop where
  connectOk : env.connectOk = true
  statusOk : env.statusOk = true
  mallocOk : env.mallocOk = true
  alloc : ∀ row key, env.alloc row key = true
  execOk : env.execOk = true

/-- What a flush function has done. -/
inductive FlushOutcome {α : Type} (count : Metrics → Metrics) (env : FlushEnv)
    (batch : List (Entry α)) (metrics : Metrics) (flushed : Flushed α) : Prop
  /-- The batch is kept, for it is empty or something failed. -/
  | kept (batch_eq : flushed.batch = batch) (committed : flushed.committed = none)
      (accounts : metrics.SameAccounts flushed.metrics) (cause : batch = [] ∨ ¬ env.Healthy)
  /-- The batch is stored and counted. -/
  | stored (query : Query α) (middle : Metrics) (nonempty : batch ≠ [])
      (batch_eq : flushed.batch = []) (committed : flushed.committed = some query)
      (rows : (∀ row key, env.alloc row key = true) → query.rows = batch)
      (accounts : metrics.SameAccounts middle)
      (metrics_eq : flushed.metrics =
        ((fun metrics => count metrics.incDbSuccess)^[batch.length] middle).incDbBatch)

/-- When every answer is favourable nothing is kept. -/
theorem FlushOutcome.batch_eq_nil {α : Type} {count : Metrics → Metrics} {env : FlushEnv}
    {batch : List (Entry α)} {metrics : Metrics} {flushed : Flushed α}
    (outcome : FlushOutcome count env batch metrics flushed) (healthy : env.Healthy) :
    flushed.batch = [] := by
  cases outcome with
  | kept batch_eq committed accounts cause =>
      rcases cause with empty | unhealthy
      · rw [batch_eq, empty]
      · exact absurd healthy unhealthy
  | stored query middle nonempty batch_eq committed rows accounts metrics_eq => exact batch_eq

/-- A flush function gets as far as `PQexec`. -/
def FlushEnv.Executes {α : Type} (env : FlushEnv) (conn : Bool) (batch : List (Entry α)) : Prop :=
  batch ≠ [] ∧ (if conn then env.statusOk else env.connectOk) = true ∧ env.mallocOk = true

instance {α : Type} (env : FlushEnv) (conn : Bool) (batch : List (Entry α)) :
    Decidable (env.Executes conn batch) :=
  inferInstanceAs (Decidable (_ ∧ _ ∧ _))

theorem ensureConnection_metrics (env : FlushEnv) (conn : Bool) (metrics : Metrics) :
    (ensureConnection env conn metrics).1 = (if conn then env.statusOk else env.connectOk) ∧
      (ensureConnection env conn metrics).2.1 = (if conn then env.statusOk else env.connectOk) ∧
        (ensureConnection env conn metrics).2.2 =
          if !conn && env.connectOk then metrics.incDbReconnect else metrics := by
  rw [ensureConnection]
  cases conn <;> cases env.connectOk <;> cases env.statusOk <;> exact ⟨rfl, rfl, rfl⟩

section Executed

variable {α : Type} (table : Table α) (count : Metrics → Metrics) {env : FlushEnv} {conn : Bool}
  {batch : List (Entry α)} (metrics : Metrics)

/-- Without a statement only the counter of the reconnects may change. -/
theorem flushBatch_of_not_executes (unexecuted : ¬ env.Executes conn batch) :
    ∃ ok conn' metrics', flushBatch table count env conn batch metrics =
        .ok { ok, conn := conn', batch, metrics := metrics', committed := none } ∧
      (metrics' = metrics ∨ metrics' = metrics.incDbReconnect) := by
  rw [flushBatch]
  by_cases empty : batch.length = 0
  · rw [if_pos empty]
    exact ⟨true, conn, metrics, rfl, .inl rfl⟩
  rw [if_neg empty]
  obtain ⟨connected, kept, counted⟩ := ensureConnection_metrics env conn metrics
  have reconnects : (ensureConnection env conn metrics).2.2 = metrics ∨
      (ensureConnection env conn metrics).2.2 = metrics.incDbReconnect := by
    rw [counted]
    split
    · exact .inr rfl
    · exact .inl rfl
  generalize ensureConnection env conn metrics = outcome at connected kept reconnects ⊢
  obtain ⟨connected', conn', metrics'⟩ := outcome
  cases connected' with
  | false => exact ⟨false, conn', metrics', rfl, reconnects⟩
  | true =>
      have allocation : env.mallocOk = false := by
        apply Bool.eq_false_iff.mpr
        intro malloc
        exact unexecuted ⟨fun nil => empty (List.length_eq_zero_iff.mpr nil), connected.symm, malloc⟩
      simp only [allocation]
      exact ⟨false, conn', metrics', rfl, reconnects⟩

/-- What follows `PQexec`. -/
theorem flushBatch_of_executes (executes : env.Executes conn batch) {query : Query α}
    (built : table.buildQuery env.alloc batch = .ok query) :
    ∃ middle, (middle = metrics ∨ middle = metrics.incDbReconnect) ∧
      flushBatch table count env conn batch metrics = .ok
        (if env.execOk then
          { ok := true, conn := true, batch := []
            metrics := ((fun metrics => count metrics.incDbSuccess)^[batch.length]
              (middle.addDbLatency
                ((getTimeMs env.endTime - getTimeMs env.startTime) * 1000))).incDbBatch
            committed := some query }
        else
          { ok := false, conn := true, batch
            metrics := (middle.addDbLatency
              ((getTimeMs env.endTime - getTimeMs env.startTime) * 1000)).incDbFailed
            committed := none }) := by
  obtain ⟨nonempty, connects, malloc⟩ := executes
  have filled : ¬ batch.length = 0 := fun empty => nonempty (List.length_eq_zero_iff.mp empty)
  obtain ⟨connected, kept, counted⟩ := ensureConnection_metrics env conn metrics
  refine ⟨(ensureConnection env conn metrics).2.2, ?_, ?_⟩
  · rw [counted]
    split
    · exact .inr rfl
    · exact .inl rfl
  rw [connects] at connected kept
  rw [flushBatch, if_neg filled]
  simp only [connected, kept, malloc, built, Bool.not_true, Bool.false_eq_true, if_false]
  cases env.execOk <;> rfl

end Executed

theorem Metrics.sameAccounts_of_reconnects {before after : Metrics}
    (reconnects : after = before ∨ after = before.incDbReconnect) :
    before.SameAccounts after := by
  rcases reconnects with rfl | rfl
  · exact .refl after
  · exact ⟨rfl, rfl, rfl, rfl, rfl⟩

/-- When every answer is favourable, a batch with an entry is given to `PQexec`. -/
theorem FlushEnv.Healthy.executes {α : Type} {env : FlushEnv} (healthy : env.Healthy) (conn : Bool)
    {batch : List (Entry α)} (nonempty : batch ≠ []) : env.Executes conn batch := by
  refine ⟨nonempty, ?_, healthy.mallocOk⟩
  rw [healthy.connectOk, healthy.statusOk, ite_self]

/-- A flush function never overruns its statement buffer, and it keeps the batch or stores it. -/
theorem flushBatch_outcome {α : Type} (table : Table α) (count : Metrics → Metrics)
    (env : FlushEnv) (conn : Bool) (batch : List (Entry α)) (metrics : Metrics) :
    ∃ flushed, flushBatch table count env conn batch metrics = .ok flushed ∧
      FlushOutcome count env batch metrics flushed := by
  by_cases executes : env.Executes conn batch
  · obtain ⟨query, built, rows⟩ := table.buildQuery_ok env.alloc batch
    obtain ⟨middle, reconnects, result⟩ := flushBatch_of_executes table count metrics executes built
    have accounts := Metrics.sameAccounts_of_reconnects reconnects
    refine ⟨_, result, ?_⟩
    cases exec : env.execOk with
    | false =>
        refine .kept rfl rfl ?_ (Or.inr fun healthy => ?_)
        · exact ⟨accounts.eventsTotal, accounts.eventsPumpfun, accounts.eventsRaydium,
            accounts.dbInsertsSuccess, accounts.dbBatches⟩
        · rw [healthy.execOk] at exec
          cases exec
    | true =>
        refine .stored query _ executes.1 rfl rfl rows ?_ rfl
        exact ⟨accounts.eventsTotal, accounts.eventsPumpfun, accounts.eventsRaydium,
          accounts.dbInsertsSuccess, accounts.dbBatches⟩
  · obtain ⟨ok, conn', metrics', result, reconnects⟩ :=
      flushBatch_of_not_executes table count metrics executes
    refine ⟨_, result, .kept rfl rfl (Metrics.sameAccounts_of_reconnects reconnects) ?_⟩
    by_cases empty : batch = []
    · exact Or.inl empty
    · exact Or.inr fun healthy => executes (healthy.executes conn empty)

theorem flushPumpfunBatch_ok (env : FlushEnv) (writer : DbWriter) :
    ∃ flushed, FlushOutcome Metrics.incPumpfun env writer.pumpfunBatch writer.metrics flushed ∧
      flushPumpfunBatch env writer = .ok (writer.settlePumpfun flushed) := by
  obtain ⟨flushed, result, outcome⟩ := flushBatch_outcome pumpfunTable Metrics.incPumpfun env
    writer.conn writer.pumpfunBatch writer.metrics
  exact ⟨flushed, outcome, by rw [flushPumpfunBatch, result]; rfl⟩

theorem flushRaydiumBatch_ok (env : FlushEnv) (writer : DbWriter) :
    ∃ flushed, FlushOutcome Metrics.incRaydium env writer.raydiumBatch writer.metrics flushed ∧
      flushRaydiumBatch env writer = .ok (writer.settleRaydium flushed) := by
  obtain ⟨flushed, result, outcome⟩ := flushBatch_outcome raydiumTable Metrics.incRaydium env
    writer.conn writer.raydiumBatch writer.metrics
  exact ⟨flushed, outcome, by rw [flushRaydiumBatch, result]; rfl⟩

theorem flushAllBatches_ok (env : FlushAllEnv) (writer : DbWriter) :
    ∃ next, flushAllBatches env writer = .ok next := by
  obtain ⟨first, -, pumpfun⟩ := flushPumpfunBatch_ok env.pumpfun writer
  obtain ⟨second, -, raydium⟩ := flushRaydiumBatch_ok env.raydium (writer.settlePumpfun first)
  refine ⟨{ (writer.settlePumpfun first).settleRaydium second with lastFlush := env.lastFlush }, ?_⟩
  rw [flushAllBatches, pumpfun]
  simp only [bind, Except.bind]
  rw [raydium]
  rfl

theorem flushOnTimer_ok (env : Iteration) (writer : DbWriter) :
    ∃ next, flushOnTimer env writer = .ok next := by
  rw [flushOnTimer]
  split
  · exact flushAllBatches_ok env.timerFlush writer
  · exact ⟨writer, rfl⟩

/-- The count of the batch of a type. -/
def DbWriter.count (writer : DbWriter) : EventType → ℕ
  | .none => 0
  | .pumpfunTrade => writer.pumpfunBatch.length
  | .raydiumSwap => writer.raydiumBatch.length

/-- An event is stored exactly when there is a place for it in the batch of its type. -/
theorem storeEvent_ok_iff (env : Iteration) (event : Event) (writer : DbWriter) :
    (∃ next, storeEvent env event writer = .ok next) ↔ writer.count event.type < batchSize := by
  rw [storeEvent, Event.type]
  cases event.data with
  | none => exact ⟨fun _ => Nat.zero_lt_succ 99, fun _ => ⟨writer, rfl⟩⟩
  | pumpfunTrade trade =>
      simp only [appendPumpfun, DbWriter.count]
      split
      · next room =>
          refine ⟨fun _ => room, fun _ => ?_⟩
          simp only [bind, Except.bind]
          split
          · obtain ⟨flushed, -, result⟩ := flushPumpfunBatch_ok env.sizeFlush _
            exact ⟨_, result⟩
          · exact ⟨_, rfl⟩
      · next full =>
          refine ⟨?_, fun room => absurd room full⟩
          rintro ⟨next, impossible⟩
          cases impossible
  | raydiumSwap swap =>
      simp only [appendRaydium, DbWriter.count]
      split
      · next room =>
          refine ⟨fun _ => room, fun _ => ?_⟩
          simp only [bind, Except.bind]
          split
          · obtain ⟨flushed, -, result⟩ := flushRaydiumBatch_ok env.sizeFlush _
            exact ⟨_, result⟩
          · exact ⟨_, rfl⟩
      · next full =>
          refine ⟨?_, fun room => absurd room full⟩
          rintro ⟨next, impossible⟩
          cases impossible

/-! ## Iterations -/

/-- Every flush of an iteration finds an admissible environment. -/
structure Iteration.Admits (admissible : FlushEnv → Prop) (env : Iteration) : Prop where
  sizeFlush : admissible env.sizeFlush
  pumpfun : admissible env.timerFlush.pumpfun
  raydium : admissible env.timerFlush.raydium

/-- The flushes keep a property of the writer. -/
structure FlushesPreserve (admissible : FlushEnv → Prop) (property : DbWriter → Prop) :
    Prop where
  flushPumpfun : ∀ env writer next, admissible env → property writer →
    flushPumpfunBatch env writer = .ok next → property next
  flushRaydium : ∀ env writer next, admissible env → property writer →
    flushRaydiumBatch env writer = .ok next → property next
  lastFlush : ∀ writer tv, property writer → property { writer with lastFlush := tv }

/-- The writer once a PumpFun statement is committed; `middle` are the counters before the stored
events are counted. -/
def DbWriter.commitTrades (writer : DbWriter) (conn : Bool) (middle : Metrics)
    (query : Query PumpfunTrade) : DbWriter :=
  { writer with
    conn
    pumpfunBatch := []
    metrics := ((fun metrics : Metrics => metrics.incDbSuccess.incPumpfun)^[
      writer.pumpfunBatch.length] middle).incDbBatch
    trace := writer.trace ++ [.storedTrades query] }

/-- The writer once a Raydium statement is committed. -/
def DbWriter.commitSwaps (writer : DbWriter) (conn : Bool) (middle : Metrics)
    (query : Query RaydiumSwap) : DbWriter :=
  { writer with
    conn
    raydiumBatch := []
    metrics := ((fun metrics : Metrics => metrics.incDbSuccess.incRaydium)^[
      writer.raydiumBatch.length] middle).incDbBatch
    trace := writer.trace ++ [.storedSwaps query] }

/-- A property is kept by the flushes when it survives a flush that keeps its batch and the two
commits. -/
theorem FlushesPreserve.of_outcomes {admissible : FlushEnv → Prop} {property : DbWriter → Prop}
    (kept : ∀ (writer : DbWriter) (conn : Bool) (metrics : Metrics),
      writer.metrics.SameAccounts metrics → property writer →
        property { writer with conn, metrics })
    (commitTrades : ∀ (env : FlushEnv) (writer : DbWriter) (conn : Bool) (middle : Metrics)
      (query : Query PumpfunTrade), admissible env → writer.metrics.SameAccounts middle →
        ((∀ row key, env.alloc row key = true) → query.rows = writer.pumpfunBatch) →
          property writer → property (writer.commitTrades conn middle query))
    (commitSwaps : ∀ (env : FlushEnv) (writer : DbWriter) (conn : Bool) (middle : Metrics)
      (query : Query RaydiumSwap), admissible env → writer.metrics.SameAccounts middle →
        ((∀ row key, env.alloc row key = true) → query.rows = writer.raydiumBatch) →
          property writer → property (writer.commitSwaps conn middle query))
    (lastFlush : ∀ writer tv, property writer → property { writer with lastFlush := tv }) :
    FlushesPreserve admissible property where
  flushPumpfun := by
    intro env writer next admitted held flushed
    obtain ⟨result, outcome, flushed'⟩ := flushPumpfunBatch_ok env writer
    rw [flushed'] at flushed
    cases flushed
    cases outcome with
    | kept batch_eq committed accounts cause =>
        rw [DbWriter.settlePumpfun, batch_eq, committed, Option.map_none, Option.toList_none,
          List.append_nil]
        exact kept writer result.conn result.metrics accounts held
    | stored query middle nonempty batch_eq committed rows accounts metrics_eq =>
        rw [DbWriter.settlePumpfun, batch_eq, committed, Option.map_some, Option.toList_some,
          metrics_eq]
        exact commitTrades env writer result.conn middle query admitted accounts rows held
  flushRaydium := by
    intro env writer next admitted held flushed
    obtain ⟨result, outcome, flushed'⟩ := flushRaydiumBatch_ok env writer
    rw [flushed'] at flushed
    cases flushed
    cases outcome with
    | kept batch_eq committed accounts cause =>
        rw [DbWriter.settleRaydium, batch_eq, committed, Option.map_none, Option.toList_none,
          List.append_nil]
        exact kept writer result.conn result.metrics accounts held
    | stored query middle nonempty batch_eq committed rows accounts metrics_eq =>
        rw [DbWriter.settleRaydium, batch_eq, committed, Option.map_some, Option.toList_some,
          metrics_eq]
        exact commitSwaps env writer result.conn middle query admitted accounts rows held
  lastFlush := lastFlush

/-- A flush keeps the length of a batch or makes it zero. -/
theorem FlushesPreserve.of_lengths (admissible : FlushEnv → Prop) {trades swaps : ℕ → Prop}
    (noTrades : trades 0) (noSwaps : swaps 0) :
    FlushesPreserve admissible fun writer =>
      trades writer.pumpfunBatch.length ∧ swaps writer.raydiumBatch.length := by
  refine .of_outcomes ?_ ?_ ?_ ?_
  · exact fun writer conn metrics accounts lengths => lengths
  · exact fun env writer conn middle query admitted accounts rows lengths => ⟨noTrades, lengths.2⟩
  · exact fun env writer conn middle query admitted accounts rows lengths => ⟨lengths.1, noSwaps⟩
  · exact fun writer tv lengths => lengths

/-- What an iteration is made of keeps a property of the writer. -/
structure Preserved (admissible : FlushEnv → Prop) (poppable : Event → Prop)
    (property : DbWriter → Prop) : Prop extends FlushesPreserve admissible property where
  trade : ∀ writer event trade, poppable event → event.data = .pumpfunTrade trade →
    writer.pumpfunBatch.length < batchSize → property writer →
      property { writer.pop event with
        pumpfunBatch := writer.pumpfunBatch ++ [event.entry trade] }
  swap : ∀ writer event swap, poppable event → event.data = .raydiumSwap swap →
    writer.raydiumBatch.length < batchSize → property writer →
      property { writer.pop event with
        raydiumBatch := writer.raydiumBatch ++ [event.entry swap] }
  other : ∀ writer event, poppable event → event.data = .none → property writer →
    property (writer.pop event)

theorem bind_ok {α β : Type} {value : Except Fault α} {next : α → Except Fault β}
    {result : β} (ran : value >>= next = .ok result) :
    ∃ middle, value = .ok middle ∧ next middle = .ok result := by
  cases value with
  | error fault => cases ran
  | ok middle => exact ⟨middle, rfl, ran⟩

/-- What storing an event can do: append it to a batch with a free place, and flush that batch once
it is full, or ignore it. -/
theorem storeEvent_cases {env : Iteration} {event : Event} {writer next : DbWriter}
    (stored : storeEvent env event writer = .ok next) :
    (∃ trade, event.data = .pumpfunTrade trade ∧ writer.pumpfunBatch.length < batchSize ∧
      (batchSize ≤ writer.pumpfunBatch.length + 1 ∧
          flushPumpfunBatch env.sizeFlush { writer with
            pumpfunBatch := writer.pumpfunBatch ++ [event.entry trade] } = .ok next ∨
        writer.pumpfunBatch.length + 1 < batchSize ∧
          next = { writer with pumpfunBatch := writer.pumpfunBatch ++ [event.entry trade] })) ∨
    (∃ swap, event.data = .raydiumSwap swap ∧ writer.raydiumBatch.length < batchSize ∧
      (batchSize ≤ writer.raydiumBatch.length + 1 ∧
          flushRaydiumBatch env.sizeFlush { writer with
            raydiumBatch := writer.raydiumBatch ++ [event.entry swap] } = .ok next ∨
        writer.raydiumBatch.length + 1 < batchSize ∧
          next = { writer with raydiumBatch := writer.raydiumBatch ++ [event.entry swap] })) ∨
    event.data = .none ∧ next = writer := by
  rw [storeEvent] at stored
  split at stored
  · next trade data =>
      left
      obtain ⟨middle, appended, rest⟩ := bind_ok stored
      rw [appendPumpfun] at appended
      split at appended
      · next room =>
          cases appended
          refine ⟨trade, data, room, ?_⟩
          rw [List.length_append, List.length_singleton] at rest
          split at rest
          · next full => exact Or.inl ⟨full, rest⟩
          · next spare =>
              cases rest
              exact Or.inr ⟨by omega, rfl⟩
      · cases appended
  · next swap data =>
      right
      left
      obtain ⟨middle, appended, rest⟩ := bind_ok stored
      rw [appendRaydium] at appended
      split at appended
      · next room =>
          cases appended
          refine ⟨swap, data, room, ?_⟩
          rw [List.length_append, List.length_singleton] at rest
          split at rest
          · next full => exact Or.inl ⟨full, rest⟩
          · next spare =>
              cases rest
              exact Or.inr ⟨by omega, rfl⟩
      · cases appended
  · next data =>
      cases stored
      exact Or.inr (Or.inr ⟨data, rfl⟩)

section Preservation

variable {admissible : FlushEnv → Prop} {poppable : Event → Prop} {property : DbWriter → Prop}

theorem flushAllBatches_preserves (preserved : FlushesPreserve admissible property)
    {env : FlushAllEnv} (pumpfun : admissible env.pumpfun) (raydium : admissible env.raydium)
    {writer next : DbWriter} (initially : property writer)
    (flushed : flushAllBatches env writer = .ok next) : property next := by
  obtain ⟨first, flushedPumpfun, rest⟩ := bind_ok flushed
  obtain ⟨second, flushedRaydium, done⟩ := bind_ok rest
  cases done
  apply preserved.lastFlush
  apply preserved.flushRaydium env.raydium first second raydium _ flushedRaydium
  exact preserved.flushPumpfun env.pumpfun writer first pumpfun initially flushedPumpfun

theorem flushOnTimer_preserves (preserved : FlushesPreserve admissible property)
    {env : Iteration} (admits : env.Admits admissible) {writer next : DbWriter}
    (initially : property writer) (flushed : flushOnTimer env writer = .ok next) :
    property next := by
  rw [flushOnTimer] at flushed
  split at flushed
  · exact flushAllBatches_preserves preserved admits.pumpfun admits.raydium initially flushed
  · cases flushed
    exact initially

theorem storeEvent_preserves (preserved : Preserved admissible poppable property)
    {env : Iteration} (admits : env.Admits admissible) {writer next : DbWriter} {event : Event}
    (popped : poppable event) (initially : property writer)
    (stored : storeEvent env event (writer.pop event) = .ok next) : property next := by
  rcases storeEvent_cases stored with ⟨trade, data, room, outcome⟩ | ⟨swap, data, room, outcome⟩ |
    ⟨data, rfl⟩
  · have held := preserved.trade writer event trade popped data room initially
    rcases outcome with ⟨-, flushed⟩ | ⟨-, rfl⟩
    · exact preserved.flushPumpfun env.sizeFlush _ next admits.sizeFlush held flushed
    · exact held
  · have held := preserved.swap writer event swap popped data room initially
    rcases outcome with ⟨-, flushed⟩ | ⟨-, rfl⟩
    · exact preserved.flushRaydium env.sizeFlush _ next admits.sizeFlush held flushed
    · exact held
  · exact preserved.other writer event popped data initially

/-- An iteration keeps what its parts keep. -/
theorem iteration_preserves (preserved : Preserved admissible poppable property)
    {env : Iteration} (admits : env.Admits admissible)
    (popped : ∀ event, env.popped = some event → poppable event) {writer next : DbWriter}
    (initially : property writer) (iterated : iteration env writer = .ok next) :
    property next := by
  rw [iteration] at iterated
  split at iterated
  · exact flushOnTimer_preserves preserved.toFlushesPreserve admits initially iterated
  · next event returned =>
      obtain ⟨middle, stored, rest⟩ := bind_ok iterated
      have held := storeEvent_preserves preserved admits (popped event returned) initially stored
      exact flushOnTimer_preserves preserved.toFlushesPreserve admits held rest

/-- A run keeps what the parts of its iterations keep. -/
theorem writerRun_preserves (preserved : Preserved admissible poppable property)
    {writer final : DbWriter} {envs : List Iteration}
    (admits : ∀ env ∈ envs, env.Admits admissible)
    (popped : ∀ env ∈ envs, ∀ event, env.popped = some event → poppable event)
    (initially : property writer) (execution : Execution.run writerStep writer envs = some final) :
    property final := by
  have stepwise : ∀ (before : DbWriter) (env : Iteration) (after : DbWriter),
      (env.Admits admissible ∧ ∀ event, env.popped = some event → poppable event) →
        property before → writerStep before env = some after → property after := by
    rintro before env after ⟨admitted, poppables⟩ held stepped
    exact iteration_preserves preserved admitted poppables held (writerStep_eq_some.mp stepped)
  exact Execution.run_invariant_of_forall stepwise
    (fun env member => ⟨admits env member, popped env member⟩) initially execution

end Preservation

end YureiGeyser
