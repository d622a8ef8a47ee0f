import YureiGeyser.StatementText
import YureiGeyser.WriterRuns

/-!
# Skipped rows

A flush function skips the entries whose keys cannot be encoded.  Its commas depend on the places
in the batch and its counters on the size of the batch, so that both are wrong for some of the rows
that remain.
-/

namespace YureiGeyser

/-- What a flush function should do with the entries whose keys are encoded. -/
structure Table.SkipsCleanly {α : Type} (table : Table α) (count : Metrics → Metrics)
    (stored : Metrics → UInt64) (env : FlushEnv) (conn : Bool) (batch : List (Entry α))
    (metrics : Metrics) : Prop where
  /-- A statement lists their rows, of which there is at least one. -/
  statement : ∀ query, table.executed env conn batch = .ok (some query) →
    table.written env.alloc batch ≠ [] ∧
      query.text = table.header ++
        Tuples.printRows ((table.written env.alloc batch).map fun entry => table.row entry.1)
  /-- A successful insert counts them. -/
  counted : ∀ flushed, flushBatch table count env conn batch metrics = .ok flushed →
    flushed.committed.isSome →
      flushed.metrics.dbInsertsSuccess =
          metrics.dbInsertsSuccess + UInt64.ofNat (table.written env.alloc batch).length ∧
        stored flushed.metrics =
          stored metrics + UInt64.ofNat (table.written env.alloc batch).length

/-- No statement is executed, or no entry is skipped, or the insert fails and the first entry is not
skipped. -/
def Table.SkipsHarmlessly {α : Type} (table : Table α) (env : FlushEnv) (conn : Bool)
    (batch : List (Entry α)) : Prop :=
  ¬ env.Executes conn batch ∨ (∀ entry ∈ batch.zipIdx, table.encodes env.alloc entry = true) ∨
    env.execOk = false ∧ ∀ first ∈ batch.head?, table.encodes env.alloc (first, 0) = true

/-- What is counted for a stored entry, and the counter of its protocol. -/
structure Counts (count : Metrics → Metrics) (stored : Metrics → UInt64) : Prop where
  success : ∀ number metrics, ((fun metrics => count metrics.incDbSuccess)^[number]
    metrics).dbInsertsSuccess = metrics.dbInsertsSuccess + UInt64.ofNat number
  counter : ∀ number metrics, stored ((fun metrics => count metrics.incDbSuccess)^[number]
    metrics) = stored metrics + UInt64.ofNat number
  batch : ∀ metrics, stored metrics.incDbBatch = stored metrics
  latency : ∀ us metrics, stored (metrics.addDbLatency us) = stored metrics
  reconnect : ∀ metrics, stored metrics.incDbReconnect = stored metrics

theorem counts_pumpfun : Counts Metrics.incPumpfun Metrics.eventsPumpfun where
  success number metrics := by rw [iterate_incPumpfun]
  counter number metrics := by rw [iterate_incPumpfun]
  batch _ := rfl
  latency _ _ := rfl
  reconnect _ := rfl

theorem counts_raydium : Counts Metrics.incRaydium Metrics.eventsRaydium where
  success number metrics := by rw [iterate_incRaydium]
  counter number metrics := by rw [iterate_incRaydium]
  batch _ := rfl
  latency _ _ := rfl
  reconnect _ := rfl

namespace Table

variable {α : Type} {table : Table α} {count : Metrics → Metrics} {stored : Metrics → UInt64}
  {env : FlushEnv} {conn : Bool} {batch : List (Entry α)} {metrics : Metrics}

theorem executed_of_executes (executes : env.Executes conn batch) :
    table.executed env conn batch =
      .ok (some (table.printed env.alloc batch.zipIdx table.start)) := by
  rw [executed, if_pos executes, buildQuery_eq]
  rfl

/-- A successful insert counts the whole batch. -/
theorem counters_of_committed (counts : Counts count stored) {flushed : Flushed α}
    (ran : flushBatch table count env conn batch metrics = .ok flushed)
    (committed : flushed.committed.isSome) :
    flushed.metrics.dbInsertsSuccess =
        metrics.dbInsertsSuccess + UInt64.ofNat batch.length ∧
      stored flushed.metrics = stored metrics + UInt64.ofNat batch.length := by
  by_cases executes : env.Executes conn batch
  · obtain ⟨middle, reconnects, result⟩ :=
      flushBatch_of_executes table count metrics executes (table.buildQuery_eq env.alloc batch)
    rw [result] at ran
    cases ran
    cases exec : env.execOk with
    | false =>
        rw [exec] at committed
        cases committed
    | true =>
        have kept : middle.dbInsertsSuccess = metrics.dbInsertsSuccess ∧
            stored middle = stored metrics := by
          rcases reconnects with rfl | rfl
          · exact ⟨rfl, rfl⟩
          · exact ⟨rfl, counts.reconnect metrics⟩
        simp only [if_true]
        rw [counts.batch, counts.counter, counts.latency, kept.2]
        refine ⟨?_, rfl⟩
        rw [← kept.1]
        exact counts.success batch.length _
  · obtain ⟨ok, conn', metrics', result, -⟩ :=
      flushBatch_of_not_executes table count metrics executes
    rw [result] at ran
    cases ran
    cases committed

/-- A statement is a list of rows exactly when the first entry is not skipped. -/
theorem statement_iff (table : Table α) (alloc : ℕ → ℕ → Bool) (first : Entry α)
    (rest : List (Entry α)) :
    (table.written alloc (first :: rest) ≠ [] ∧
        (table.printed alloc (first :: rest).zipIdx table.start).text = table.header ++
          Tuples.printRows ((table.written alloc (first :: rest)).map fun entry =>
            table.row entry.1)) ↔
      table.encodes alloc (first, 0) = true := by
  have text : (table.printed alloc (first :: rest).zipIdx table.start).text =
      table.header ++ (table.written alloc (first :: rest)).flatMap table.piece := rfl
  rw [text, List.append_cancel_left_eq]
  constructor
  · rintro ⟨nonempty, listed⟩
    by_contra skipped
    rw [written, List.zipIdx_cons, List.filter_cons_of_neg skipped, Nat.zero_add] at nonempty listed
    rw [table.flatMap_piece fun entry member => Nat.lt_of_lt_of_le Nat.zero_lt_one
      (List.le_snd_of_mem_zipIdx (List.mem_filter.mp member).1)] at listed
    cases remaining : (rest.zipIdx 1).filter (table.encodes alloc) with
    | nil => exact nonempty remaining
    | cons entry later =>
        rw [remaining, List.map_cons, List.flatMap_cons, Tuples.printNextRow,
          List.cons_append] at listed
        exact Tuples.printRows_ne_cons _ _ listed.symm
  · intro encodes
    refine ⟨?_, table.flatMap_written encodes rest⟩
    rw [written, List.zipIdx_cons, List.filter_cons_of_pos encodes]
    exact List.cons_ne_nil _ _

/-- The size of the batch is the number of rows exactly when no entry is skipped. -/
theorem length_written_iff {alloc : ℕ → ℕ → Bool} (room : batch.length ≤ batchSize) :
    UInt64.ofNat batch.length = UInt64.ofNat (table.written alloc batch).length ↔
      ∀ entry ∈ batch.zipIdx, table.encodes alloc entry = true := by
  have fewer : (table.written alloc batch).length ≤ batch.zipIdx.length := List.length_filter_le _ _
  rw [List.length_zipIdx] at fewer
  rw [batchSize] at room
  rw [← List.length_filter_eq_length_iff, ← written, List.length_zipIdx]
  constructor
  · intro same
    have lengths := congrArg UInt64.toNat same
    rw [UInt64.toNat_ofNat', UInt64.toNat_ofNat'] at lengths
    omega
  · intro lengths
    rw [lengths]

/-- The statement and the counters are right exactly when the skipped entries do no harm. -/
theorem skipsCleanly_iff (counts : Counts count stored) (room : batch.length ≤ batchSize) :
    table.SkipsCleanly count stored env conn batch metrics ↔
      table.SkipsHarmlessly env conn batch := by
  by_cases executes : env.Executes conn batch
  swap
  · refine iff_of_true ⟨fun query asked => ?_, fun flushed ran committed => ?_⟩ (.inl executes)
    · rw [executed, if_neg executes] at asked
      cases asked
    · obtain ⟨ok, conn', metrics', result, -⟩ :=
        flushBatch_of_not_executes table count metrics executes
      rw [result] at ran
      cases ran
      cases committed
  have asked : table.executed env conn batch =
      .ok (some (table.printed env.alloc batch.zipIdx table.start)) := executed_of_executes executes
  obtain ⟨first, rest, rfl⟩ := List.exists_cons_of_ne_nil executes.1
  have listed := statement_iff table env.alloc first rest
  have committed : ∀ flushed, flushBatch table count env conn (first :: rest) metrics = .ok flushed →
      (flushed.committed.isSome ↔ env.execOk = true) := by
    intro flushed ran
    obtain ⟨middle, -, result⟩ := flushBatch_of_executes table count metrics executes
      (table.buildQuery_eq env.alloc (first :: rest))
    rw [result] at ran
    cases ran
    cases env.execOk <;> simp
  constructor
  · intro clean
    have encodes := listed.mp (clean.statement _ asked)
    refine .inr ?_
    cases exec : env.execOk with
    | false => exact .inr ⟨rfl, fun head member => by cases member; exact encodes⟩
    | true =>
        obtain ⟨flushed, ran, -⟩ := flushBatch_outcome table count env conn (first :: rest) metrics
        have stored := (committed flushed ran).mpr exec
        have rows := (clean.counted flushed ran stored).1
        rw [(counters_of_committed counts ran stored).1] at rows
        exact .inl ((length_written_iff room).mp ((UInt64.add_right_inj _).mp rows))
  · intro harmless
    rcases harmless with absent | all | ⟨refused, head⟩
    · exact absurd executes absent
    · refine ⟨fun query there => ?_, fun flushed ran stored => ?_⟩
      · rw [asked] at there
        cases there
        exact listed.mpr (all (first, 0) List.mem_cons_self)
      · rw [← (length_written_iff room).mpr all]
        exact counters_of_committed counts ran stored
    · refine ⟨fun query there => ?_, fun flushed ran stored => ?_⟩
      · rw [asked] at there
        cases there
        exact listed.mpr (head first rfl)
      · rw [committed flushed ran, refused] at stored
        cases stored

end Table

/-- In both flush functions, whatever keys cannot be encoded, the statement and the counters are
right exactly when the skipped entries do no harm. -/
theorem skipped_rows_iff (env : FlushEnv) (conn : Bool) (metrics : Metrics) :
    (∀ batch : List (Entry PumpfunTrade), batch.length ≤ batchSize →
        (pumpfunTable.SkipsCleanly Metrics.incPumpfun Metrics.eventsPumpfun env conn batch metrics ↔
          pumpfunTable.SkipsHarmlessly env conn batch)) ∧
      ∀ batch : List (Entry RaydiumSwap), batch.length ≤ batchSize →
        (raydiumTable.SkipsCleanly Metrics.incRaydium Metrics.eventsRaydium env conn batch metrics ↔
          raydiumTable.SkipsHarmlessly env conn batch) :=
  ⟨fun _ room => Table.skipsCleanly_iff counts_pumpfun room,
    fun _ room => Table.skipsCleanly_iff counts_raydium room⟩

/-- A flush without memory for the keys of the first entry. -/
def firstSkipped : FlushEnv :=
  { healthyFlush with alloc := fun row _ => row ≠ 0 }

/-- No entry is skipped. -/
theorem skipped_rows_iff_none :
    raydiumTable.SkipsCleanly Metrics.incRaydium Metrics.eventsRaydium healthyFlush false
      [largestSwap, largestSwap] Metrics.init := by
  refine ((skipped_rows_iff healthyFlush false Metrics.init).2 _ (by decide)).mpr ?_
  refine .inr (.inl fun entry _ => ?_)
  exact Table.encodeKeys_isSome fun _ => rfl

/-- The second of two swaps is written behind a comma. -/
theorem not_skipsCleanly_first :
    ¬ raydiumTable.SkipsCleanly Metrics.incRaydium Metrics.eventsRaydium firstSkipped false
      [largestSwap, largestSwap] Metrics.init := by
  rw [Table.skipsCleanly_iff counts_raydium (by decide)]
  have skipped : raydiumTable.encodes firstSkipped.alloc (largestSwap, 0) = false := rfl
  rintro (absent | all | ⟨refused, -⟩)
  · exact absent (by decide)
  · have first := all (largestSwap, 0) List.mem_cons_self
    rw [skipped] at first
    cases first
  · cases refused

end YureiGeyser
