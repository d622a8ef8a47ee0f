import YureiGeyser.Library.Ledger
import YureiGeyser.WriterClock

/-!
# The libpq objects of the writer

A flush connects if it has to, builds its statement in a buffer on the heap and looks at one result;
a connection is kept for the next flush unless its status is bad.  The operations of an iteration
are run on a ledger.
-/

namespace YureiGeyser

/-- What the writer thread creates. -/
inductive DbObject
  | conn
  /-- The statement. -/
  | query
  | res
  deriving DecidableEq

section Operations

open LedgerOp

/-- The status of the connection that `ensure_connection` looks at last. -/
def FlushEnv.connected (env : FlushEnv) (conn : Bool) : Bool :=
  if conn then env.statusOk else env.connectOk

/-- `ensure_connection`. -/
def ensureConnectionOps (env : FlushEnv) (conn : Bool) : List (LedgerOp DbObject) :=
  (if conn then [] else [acquire DbObject.conn, use DbObject.conn]) ++
    use DbObject.conn ::
      if env.connected conn then [] else [use DbObject.conn, release DbObject.conn]

/-- What both flush functions do behind `ensure_connection`. -/
def statementOps (execOk : Bool) : List (LedgerOp DbObject) :=
  [acquire DbObject.query, use DbObject.query, use DbObject.conn, use DbObject.query,
    acquire DbObject.res, release DbObject.query, use DbObject.res] ++
      (if execOk then [] else [use DbObject.conn]) ++ [release DbObject.res]

/-- What both flush functions do. -/
def flushBatchOps {α : Type} (env : FlushEnv) (conn : Bool) (batch : List (Entry α)) :
    List (LedgerOp DbObject) :=
  if batch.length = 0 then []
  else
    ensureConnectionOps env conn ++
      if !env.connected conn then [] else if !env.mallocOk then [] else statementOps env.execOk

/-- What a call does to the objects. -/
def WriterCall.ops (writer : DbWriter) : WriterCall → List (LedgerOp DbObject)
  | .flushPumpfun env => flushBatchOps env writer.conn writer.pumpfunBatch
  | .flushRaydium env => flushBatchOps env writer.conn writer.raydiumBatch
  | _ => []

/-- What a list of calls does to the objects. -/
def callsOps (writer : DbWriter) : List WriterCall → List (LedgerOp DbObject)
  | [] => []
  | call :: calls =>
      call.ops writer ++ ((callStep writer call).map fun next => callsOps next calls).getD []

/-- What the loop of `db_writer_main` does to the objects. -/
def loopOps (writer : DbWriter) : List Iteration → List (LedgerOp DbObject)
  | [] => []
  | env :: envs =>
      callsOps writer (env.calls writer) ++
        ((writerStep writer env).map fun next => loopOps next envs).getD []

/-- The calls of `flush_all_batches`. -/
def FlushAllEnv.calls (env : FlushAllEnv) : List WriterCall :=
  [.flushPumpfun env.pumpfun, .flushRaydium env.raydium, .noteFlush env.lastFlush]

/-- What follows the loop: the final flush and, if there is a connection, `PQfinish`. -/
def finishOps (env : FlushAllEnv) (writer next : DbWriter) : List (LedgerOp DbObject) :=
  callsOps writer env.calls ++ if next.conn then [release DbObject.conn] else []

end Operations

/-- Between two flushes there is nothing but a connection. -/
def connection (conn : Bool) : Finset DbObject :=
  if conn then {.conn} else ∅

/-! ## Flushes -/

/-- A flush keeps the connection that `ensure_connection` approves. -/
theorem conn_of_flushBatch {α : Type} {table : Table α} {count : Metrics → Metrics}
    {env : FlushEnv} {conn : Bool} {batch : List (Entry α)} {metrics : Metrics}
    {flushed : Flushed α} (ran : flushBatch table count env conn batch metrics = .ok flushed) :
    flushed.conn = if batch.length = 0 then conn else env.connected conn := by
  rw [flushBatch] at ran
  split at ran
  · next empty =>
      cases ran
      exact (if_pos empty).symm
  · next filled =>
      rw [if_neg filled]
      obtain ⟨connected, kept, -⟩ := ensureConnection_metrics env conn metrics
      generalize ensureConnection env conn metrics = outcome at ran connected kept
      obtain ⟨approved, conn', metrics'⟩ := outcome
      dsimp only at ran connected kept
      rw [FlushEnv.connected, ← kept]
      split at ran
      · cases ran
        rfl
      · split at ran
        · cases ran
          rfl
        · obtain ⟨query, -, rest⟩ := bind_ok ran
          split at rest <;> cases rest <;> rfl

/-- What a flush function creates it releases, a good connection apart. -/
theorem flushBatch_takes {α : Type} {table : Table α} {count : Metrics → Metrics} {env : FlushEnv}
    {conn : Bool} {batch : List (Entry α)} {metrics : Metrics} {flushed : Flushed α}
    (ran : flushBatch table count env conn batch metrics = .ok flushed) :
    Ledger.Takes (flushBatchOps env conn batch) (connection conn) (connection flushed.conn) := by
  rw [conn_of_flushBatch ran, flushBatchOps]
  split
  · exact .nil _
  · have ensured : ∀ conn connected : Bool, Ledger.Takes
        ((if conn then [] else [LedgerOp.acquire DbObject.conn, .use .conn]) ++
          .use .conn :: if connected then [] else [.use .conn, .release .conn])
        (connection conn) (connection connected) := by
      decide
    have stated : ∀ mallocOk execOk : Bool, Ledger.Takes
        (if !mallocOk then [] else statementOps execOk) (connection true) (connection true) := by
      decide
    refine (ensured conn (env.connected conn)).append ?_
    cases env.connected conn with
    | false => exact .nil _
    | true => exact stated env.mallocOk env.execOk

theorem call_takes {writer next : DbWriter} {call : WriterCall}
    (taken : callStep writer call = some next) :
    Ledger.Takes (call.ops writer) (connection writer.conn) (connection next.conn) := by
  cases call with
  | store event =>
      have same : next.conn = writer.conn := by
        have stored := toOption_eq_some.mp taken
        rw [appendEvent] at stored
        split at stored
        · rw [appendPumpfun] at stored
          split at stored <;> cases stored
          rfl
        · rw [appendRaydium] at stored
          split at stored <;> cases stored
          rfl
        · cases stored
          rfl
      rw [same]
      exact .nil _
  | flushPumpfun env =>
      have flushed := toOption_eq_some.mp taken
      obtain ⟨result, ran, -⟩ := flushBatch_outcome pumpfunTable Metrics.incPumpfun env writer.conn
        writer.pumpfunBatch writer.metrics
      rw [flushPumpfunBatch, ran] at flushed
      cases flushed
      exact flushBatch_takes ran
  | flushRaydium env =>
      have flushed := toOption_eq_some.mp taken
      obtain ⟨result, ran, -⟩ := flushBatch_outcome raydiumTable Metrics.incRaydium env writer.conn
        writer.raydiumBatch writer.metrics
      rw [flushRaydiumBatch, ran] at flushed
      cases flushed
      exact flushBatch_takes ran
  | noteFlush tv | timer now =>
      cases taken
      exact .nil _

theorem calls_take {writer next : DbWriter} {calls : List WriterCall}
    (execution : Execution.run callStep writer calls = some next) :
    Ledger.Takes (callsOps writer calls) (connection writer.conn) (connection next.conn) := by
  induction calls generalizing writer with
  | nil =>
      cases execution
      exact .nil _
  | cons call calls ih =>
      obtain ⟨middle, taken, rest⟩ := Execution.run_cons_eq_some.mp execution
      rw [callsOps, taken]
      exact (call_takes taken).append (ih rest)

theorem loop_takes {writer next : DbWriter} {envs : List Iteration}
    (execution : Execution.run writerStep writer envs = some next) :
    Ledger.Takes (loopOps writer envs) (connection writer.conn) (connection next.conn) := by
  induction envs generalizing writer with
  | nil =>
      cases execution
      exact .nil _
  | cons env envs ih =>
      obtain ⟨middle, taken, rest⟩ := Execution.run_cons_eq_some.mp execution
      have ran : Execution.run callStep writer (env.calls writer) = some middle := by
        rw [run_calls, taken]
      rw [loopOps, taken]
      exact (calls_take ran).append (ih rest)

/-- In every run of the writer thread up to its first undefined step, an append into a full batch,
and whatever the database and the allocator answer, the operations on connections, statement buffers
and results succeed: none is created while there is one, used after it is released, or released
twice.  In the loop there is at most a connection, and behind the loop, whatever the final flush
does, nothing. -/
theorem db_objects_balanced {lastFlush : Timeval} {metrics : Metrics} {envs : List Iteration}
    {writer : DbWriter}
    (execution : Execution.run writerStep (dbWriterStart lastFlush metrics) envs = some writer)
    (env : FlushAllEnv) :
    Ledger.Takes (loopOps (dbWriterStart lastFlush metrics) envs) ∅ (connection writer.conn) ∧
      ∃ next, flushAllBatches env writer = .ok next ∧
        Ledger.Takes (finishOps env writer next) (connection writer.conn) ∅ := by
  refine ⟨loop_takes execution, ?_⟩
  obtain ⟨next, flushed⟩ := flushAllBatches_ok env writer
  refine ⟨next, flushed, ?_⟩
  have ran : Execution.run callStep writer env.calls = some next := by
    obtain ⟨first, flushedPumpfun, rest⟩ := bind_ok flushed
    obtain ⟨second, flushedRaydium, done⟩ := bind_ok rest
    cases done
    refine Execution.run_cons_eq_some.mpr ⟨first, toOption_eq_some.mpr flushedPumpfun, ?_⟩
    exact Execution.run_cons_eq_some.mpr ⟨second, toOption_eq_some.mpr flushedRaydium, rfl⟩
  have closed : ∀ conn : Bool, Ledger.Takes
      (if conn then [LedgerOp.release DbObject.conn] else []) (connection conn) ∅ := by
    decide
  exact (calls_take ran).append (closed next.conn)

/-- A trade is stored, and the connection is closed. -/
theorem db_objects_balanced_timed :
    ∃ writer, Execution.run writerStep (dbWriterStart ⟨10, 0⟩ Metrics.init)
        [timedIteration ⟨11, 0⟩] = some writer ∧ writer.conn = true ∧
      Ledger.Takes (loopOps (dbWriterStart ⟨10, 0⟩ Metrics.init) [timedIteration ⟨11, 0⟩]) ∅
        (connection writer.conn) ∧
      ∃ next, flushAllBatches (timedIteration ⟨11, 0⟩).timerFlush writer = .ok next ∧
        Ledger.Takes (finishOps (timedIteration ⟨11, 0⟩).timerFlush writer next)
          (connection writer.conn) ∅ := by
  have outcome : (Execution.run writerStep (dbWriterStart ⟨10, 0⟩ Metrics.init)
      [timedIteration ⟨11, 0⟩]).map (fun writer => writer.conn) = some true := by
    decide +kernel
  obtain ⟨writer, execution, connected⟩ := Option.map_eq_some_iff.mp outcome
  exact ⟨writer, execution, connected, db_objects_balanced execution _⟩

end YureiGeyser
