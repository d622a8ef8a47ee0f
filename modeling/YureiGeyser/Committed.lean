import YureiGeyser.StatementText
import YureiGeyser.WriterRuns

/-!
# What the writer commits

A flush that commits gives the statement for its whole batch to `PQexec`.  Whatever fails, the rows
of the committed statements are popped events in their order, and none is stored twice; with memory
for the keys they can be read back from the texts of the statements.  The runs end at the first
append into a full batch.
-/

namespace YureiGeyser

open Base58 Tuples

/-! ## Commits -/

namespace Table

variable {α : Type} (table : Table α)

/-- A flush keeps its batch, or it commits the statement for the batch. -/
theorem flushBatch_commits (count : Metrics → Metrics) (env : FlushEnv) (conn : Bool)
    (batch : List (Entry α)) (metrics : Metrics) :
    ∃ flushed, flushBatch table count env conn batch metrics = .ok flushed ∧
      (flushed.batch = batch ∧ flushed.committed = none ∨
        flushed.batch = [] ∧ ∃ query, table.executed env conn batch = .ok (some query) ∧
          flushed.committed = some query) := by
  by_cases executes : env.Executes conn batch
  · obtain ⟨middle, -, flushed⟩ :=
      flushBatch_of_executes table count metrics executes (table.buildQuery_eq env.alloc batch)
    refine ⟨_, flushed, ?_⟩
    cases env.execOk with
    | false => exact .inl ⟨rfl, rfl⟩
    | true =>
        refine .inr ⟨rfl, _, ?_, rfl⟩
        rw [executed, if_pos executes, buildQuery_eq]
        rfl
  · obtain ⟨ok, conn', metrics', flushed, -⟩ :=
      flushBatch_of_not_executes table count metrics executes
    exact ⟨_, flushed, .inl ⟨rfl, rfl⟩⟩

/-- The rows of a statement are entries of the batch in their order. -/
theorem rows_sublist {env : FlushEnv} {conn : Bool} {batch : List (Entry α)} {query : Query α}
    (executed : table.executed env conn batch = .ok (some query)) : query.rows.Sublist batch := by
  rw [Table.executed] at executed
  split at executed
  · rw [buildQuery_eq] at executed
    cases executed
    have kept := (List.filter_sublist (p := table.encodes env.alloc)
      (l := batch.zipIdx)).map Prod.fst
    rw [List.zipIdx_map_fst] at kept
    exact kept
  · cases executed

end Table

/-- A property is kept by the flushes when it survives a flush that keeps its batch and the
statements that the other flushes commit. -/
theorem FlushesPreserve.of_statements {admissible : FlushEnv → Prop} {property : DbWriter → Prop}
    (kept : ∀ (writer : DbWriter) (conn : Bool) (metrics : Metrics), property writer →
      property { writer with conn, metrics })
    (trades : ∀ (env : FlushEnv) (writer : DbWriter) (conn : Bool) (metrics : Metrics)
      (query : Query PumpfunTrade), admissible env →
        pumpfunTable.executed env writer.conn writer.pumpfunBatch = .ok (some query) →
          property writer → property { writer with
            conn, pumpfunBatch := [], metrics, trace := writer.trace ++ [.storedTrades query] })
    (swaps : ∀ (env : FlushEnv) (writer : DbWriter) (conn : Bool) (metrics : Metrics)
      (query : Query RaydiumSwap), admissible env →
        raydiumTable.executed env writer.conn writer.raydiumBatch = .ok (some query) →
          property writer → property { writer with
            conn, raydiumBatch := [], metrics, trace := writer.trace ++ [.storedSwaps query] })
    (lastFlush : ∀ writer tv, property writer → property { writer with lastFlush := tv }) :
    FlushesPreserve admissible property where
  flushPumpfun := by
    intro env writer next admitted held flushed
    obtain ⟨result, ran, outcome⟩ := pumpfunTable.flushBatch_commits Metrics.incPumpfun env
      writer.conn writer.pumpfunBatch writer.metrics
    rw [flushPumpfunBatch, ran] at flushed
    cases flushed
    rw [DbWriter.settlePumpfun]
    rcases outcome with ⟨batch_eq, committed⟩ | ⟨batch_eq, query, executed, committed⟩
    · rw [batch_eq, committed, Option.map_none, Option.toList_none, List.append_nil]
      exact kept writer result.conn result.metrics held
    · rw [batch_eq, committed, Option.map_some, Option.toList_some]
      exact trades env writer result.conn result.metrics query admitted executed held
  flushRaydium := by
    intro env writer next admitted held flushed
    obtain ⟨result, ran, outcome⟩ := raydiumTable.flushBatch_commits Metrics.incRaydium env
      writer.conn writer.raydiumBatch writer.metrics
    rw [flushRaydiumBatch, ran] at flushed
    cases flushed
    rw [DbWriter.settleRaydium]
    rcases outcome with ⟨batch_eq, committed⟩ | ⟨batch_eq, query, executed, committed⟩
    · rw [batch_eq, committed, Option.map_none, Option.toList_none, List.append_nil]
      exact kept writer result.conn result.metrics held
    · rw [batch_eq, committed, Option.map_some, Option.toList_some]
      exact swaps env writer result.conn result.metrics query admitted executed held
  lastFlush := lastFlush

/-! ## Rows -/

/-- Whatever the environment answers, what is stored and what waits has been popped, in this order
and no more than once. -/
structure Excerpt (writer : DbWriter) : Prop where
  trades : (committedTrades writer.trace ++ writer.pumpfunBatch).Sublist
    ((poppedEvents writer.trace).filterMap Event.trade?)
  swaps : (committedSwaps writer.trace ++ writer.raydiumBatch).Sublist
    ((poppedEvents writer.trace).filterMap Event.swap?)

theorem dbWriterStart_excerpt (lastFlush : Timeval) (metrics : Metrics) :
    Excerpt (dbWriterStart lastFlush metrics) :=
  ⟨List.Sublist.refl [], List.Sublist.refl []⟩

theorem excerpt_flushes : FlushesPreserve (fun _ => True) Excerpt := by
  apply FlushesPreserve.of_statements
  case kept =>
    intro writer conn metrics excerpt
    exact ⟨excerpt.trades, excerpt.swaps⟩
  case trades =>
    intro env writer conn metrics query _ executed excerpt
    refine ⟨?_, ?_⟩
    · dsimp only
      rw [committedTrades_append, poppedEvents_append, List.append_nil]
      have kept := (pumpfunTable.rows_sublist executed).append_left (committedTrades writer.trace)
      simpa [committedTrades, poppedEvents] using kept.trans excerpt.trades
    · dsimp only
      rw [committedSwaps_append, poppedEvents_append]
      simpa [committedSwaps, poppedEvents] using excerpt.swaps
  case swaps =>
    intro env writer conn metrics query _ executed excerpt
    refine ⟨?_, ?_⟩
    · dsimp only
      rw [committedTrades_append, poppedEvents_append]
      simpa [committedTrades, poppedEvents] using excerpt.trades
    · dsimp only
      rw [committedSwaps_append, poppedEvents_append, List.append_nil]
      have kept := (raydiumTable.rows_sublist executed).append_left (committedSwaps writer.trace)
      simpa [committedSwaps, poppedEvents] using kept.trans excerpt.swaps
  case lastFlush =>
    intro writer tv excerpt
    exact ⟨excerpt.trades, excerpt.swaps⟩

/-- The entries of a popped event come last. -/
theorem DbWriter.trades_pop (writer : DbWriter) (event : Event) :
    (poppedEvents (writer.pop event).trace).filterMap Event.trade? =
      (poppedEvents writer.trace).filterMap Event.trade? ++ event.trade?.toList := by
  rw [pop, poppedEvents_append, List.filterMap_append]
  cases found : event.trade? <;> simp [poppedEvents, found]

theorem DbWriter.swaps_pop (writer : DbWriter) (event : Event) :
    (poppedEvents (writer.pop event).trace).filterMap Event.swap? =
      (poppedEvents writer.trace).filterMap Event.swap? ++ event.swap?.toList := by
  rw [pop, poppedEvents_append, List.filterMap_append]
  cases found : event.swap? <;> simp [poppedEvents, found]

theorem Excerpt.pop {writer : DbWriter} (excerpt : Excerpt writer) (event : Event) :
    Excerpt (writer.pop event) where
  trades := by
    rw [DbWriter.trades_pop]
    have more := excerpt.trades.trans (List.sublist_append_left _ event.trade?.toList)
    simpa [DbWriter.pop, committedTrades] using more
  swaps := by
    rw [DbWriter.swaps_pop]
    have more := excerpt.swaps.trans (List.sublist_append_left _ event.swap?.toList)
    simpa [DbWriter.pop, committedSwaps] using more

theorem excerpt_preserved : Preserved (fun _ => True) (fun _ => True) Excerpt where
  toFlushesPreserve := excerpt_flushes
  trade := by
    intro writer event trade _ data _ excerpt
    have isTrade : event.trade? = some (event.entry trade) := by rw [Event.trade?, data]
    refine ⟨?_, (excerpt.pop event).swaps⟩
    have popped := writer.trades_pop event
    rw [isTrade, Option.toList_some] at popped
    dsimp only
    rw [popped, ← List.append_assoc]
    have more := excerpt.trades.append_right [event.entry trade]
    simpa [DbWriter.pop, committedTrades] using more
  swap := by
    intro writer event swap _ data _ excerpt
    have isSwap : event.swap? = some (event.entry swap) := by rw [Event.swap?, data]
    refine ⟨(excerpt.pop event).trades, ?_⟩
    have popped := writer.swaps_pop event
    rw [isSwap, Option.toList_some] at popped
    dsimp only
    rw [popped, ← List.append_assoc]
    have more := excerpt.swaps.append_right [event.entry swap]
    simpa [DbWriter.pop, committedSwaps] using more
  other := by
    intro writer event _ _ excerpt
    exact excerpt.pop event

/-! ## Texts -/

/-- The committed PumpFun statements. -/
def tradeStatements (trace : List TraceItem) : List (Query PumpfunTrade) :=
  trace.filterMap fun
    | .storedTrades query => some query
    | _ => none

/-- The committed Raydium statements. -/
def swapStatements (trace : List TraceItem) : List (Query RaydiumSwap) :=
  trace.filterMap fun
    | .storedSwaps query => some query
    | _ => none

theorem tradeStatements_append (front back : List TraceItem) :
    tradeStatements (front ++ back) = tradeStatements front ++ tradeStatements back :=
  List.filterMap_append

theorem swapStatements_append (front back : List TraceItem) :
    swapStatements (front ++ back) = swapStatements front ++ swapStatements back :=
  List.filterMap_append

theorem flatMap_tradeStatements (trace : List TraceItem) :
    (tradeStatements trace).flatMap Query.rows = committedTrades trace := by
  induction trace with
  | nil => rfl
  | cons item trace ih =>
      cases item with
      | popped event => exact ih
      | storedTrades query => exact congrArg (query.rows ++ ·) ih
      | storedSwaps query => exact ih

theorem flatMap_swapStatements (trace : List TraceItem) :
    (swapStatements trace).flatMap Query.rows = committedSwaps trace := by
  induction trace with
  | nil => rfl
  | cons item trace ih =>
      cases item with
      | popped event => exact ih
      | storedTrades query => exact ih
      | storedSwaps query => exact congrArg (query.rows ++ ·) ih

/-- The rows of a statement can be read back from its text. -/
def Query.ReadsBack {α : Type} (query : Query α) (table : Table α)
    (readRow : List Field → Option (Entry α)) (visible : Entry α → Entry α) : Prop :=
  table.readBack readRow query.text = some (query.rows.map visible)

/-- What the texts of the committed statements say. -/
structure Transcribed (writer : DbWriter) : Prop where
  tradeSignatures : ∀ entry ∈ writer.pumpfunBatch, OverAlphabet entry.signature.bytes
  swapSignatures : ∀ entry ∈ writer.raydiumBatch, OverAlphabet entry.signature.bytes
  trades : ∀ query ∈ tradeStatements writer.trace,
    query.ReadsBack pumpfunTable readTradeRow Entry.untimed
  swaps : ∀ query ∈ swapStatements writer.trace, query.ReadsBack raydiumTable readSwapRow id

theorem dbWriterStart_transcribed (lastFlush : Timeval) (metrics : Metrics) :
    Transcribed (dbWriterStart lastFlush metrics) :=
  ⟨nofun, nofun, nofun, nofun⟩

/-- With memory for the keys the text of an executed statement gives the whole batch. -/
theorem Table.readsBack_of_executed {α : Type} (table : Table α)
    {readRow : List Field → Option (Entry α)} {visible : Entry α → Entry α}
    (labels_plain : ∀ record, ∀ label ∈ table.labels record, 39 ∉ label)
    (reads : ∀ entry, readRow (table.row entry) = some (visible entry)) {env : FlushEnv}
    (allocates : ∀ row key, env.alloc row key = true) {conn : Bool} {batch : List (Entry α)}
    (signatures : ∀ entry ∈ batch, OverAlphabet entry.signature.bytes) {query : Query α}
    (executed : table.executed env conn batch = .ok (some query)) :
    query.ReadsBack table readRow visible := by
  have executes : env.Executes conn batch := by
    by_contra unexecuted
    rw [Table.executed, if_neg unexecuted] at executed
    cases executed
  obtain ⟨other, same, -, text⟩ :=
    (table.faithful labels_plain reads allocates executes signatures).executed
  rw [executed] at same
  cases same
  obtain ⟨built, found, rows⟩ := table.buildQuery_ok env.alloc batch
  rw [Table.executed, if_pos executes, found] at executed
  cases executed
  rw [Query.ReadsBack, text, rows allocates]

theorem transcribed_flushes :
    FlushesPreserve (fun env => ∀ row key, env.alloc row key = true) Transcribed := by
  apply FlushesPreserve.of_statements
  case kept =>
    intro writer conn metrics transcribed
    exact ⟨transcribed.tradeSignatures, transcribed.swapSignatures, transcribed.trades,
      transcribed.swaps⟩
  case trades =>
    intro env writer conn metrics query allocates executed transcribed
    have sides : ∀ record, ∀ label ∈ pumpfunTable.labels record, 39 ∉ label := by
      intro trade label member
      rw [List.mem_singleton.mp member]
      cases trade.isBuy <;> decide
    refine ⟨nofun, transcribed.swapSignatures, fun later member => ?_, fun later member => ?_⟩
    · rw [tradeStatements_append, List.mem_append] at member
      rcases member with member | member
      · exact transcribed.trades later member
      · rw [List.mem_singleton.mp member]
        exact pumpfunTable.readsBack_of_executed sides readTradeRow_eq allocates
          transcribed.tradeSignatures executed
    · rw [swapStatements_append, List.mem_append] at member
      rcases member with member | member
      · exact transcribed.swaps later member
      · cases member
  case swaps =>
    intro env writer conn metrics query allocates executed transcribed
    refine ⟨transcribed.tradeSignatures, nofun, fun later member => ?_, fun later member => ?_⟩
    · rw [tradeStatements_append, List.mem_append] at member
      rcases member with member | member
      · exact transcribed.trades later member
      · cases member
    · rw [swapStatements_append, List.mem_append] at member
      rcases member with member | member
      · exact transcribed.swaps later member
      · rw [List.mem_singleton.mp member]
        exact raydiumTable.readsBack_of_executed (fun _ _ => nofun) readSwapRow_eq allocates
          transcribed.swapSignatures executed
  case lastFlush =>
    intro writer tv transcribed
    exact ⟨transcribed.tradeSignatures, transcribed.swapSignatures, transcribed.trades,
      transcribed.swaps⟩

/-- The text of a signature. -/
def Event.Signed (event : Event) : Prop :=
  OverAlphabet event.signature.bytes

theorem Transcribed.pop {writer : DbWriter} (transcribed : Transcribed writer) (event : Event) :
    Transcribed (writer.pop event) := by
  refine ⟨transcribed.tradeSignatures, transcribed.swapSignatures, fun query member => ?_,
    fun query member => ?_⟩
  · rw [DbWriter.pop, tradeStatements_append, List.mem_append] at member
    rcases member with member | member
    · exact transcribed.trades query member
    · cases member
  · rw [DbWriter.pop, swapStatements_append, List.mem_append] at member
    rcases member with member | member
    · exact transcribed.swaps query member
    · cases member

theorem transcribed_preserved :
    Preserved (fun env => ∀ row key, env.alloc row key = true) Event.Signed Transcribed where
  toFlushesPreserve := transcribed_flushes
  trade := by
    intro writer event trade signed _ _ transcribed
    have popped := transcribed.pop event
    refine ⟨fun entry member => ?_, popped.swapSignatures, popped.trades, popped.swaps⟩
    rcases List.mem_append.mp member with member | member
    · exact transcribed.tradeSignatures entry member
    · rw [List.mem_singleton.mp member]
      exact signed
  swap := by
    intro writer event swap signed _ _ transcribed
    have popped := transcribed.pop event
    refine ⟨popped.tradeSignatures, fun entry member => ?_, popped.trades, popped.swaps⟩
    rcases List.mem_append.mp member with member | member
    · exact transcribed.swapSignatures entry member
    · rw [List.mem_singleton.mp member]
      exact signed
  other := by
    intro writer event _ _ transcribed
    exact transcribed.pop event

/-- The texts of the committed statements. -/
def tradeTexts (trace : List TraceItem) : List (List UInt8) :=
  (tradeStatements trace).map Query.text

def swapTexts (trace : List TraceItem) : List (List UInt8) :=
  (swapStatements trace).map Query.text

/-- Read one after the other, the texts give the rows of all statements. -/
theorem readBack_statements {α : Type} {table : Table α} {readRow : List Field → Option (Entry α)}
    {visible : Entry α → Entry α} {queries : List (Query α)}
    (reads : ∀ query ∈ queries, query.ReadsBack table readRow visible) :
    ∃ tables, (queries.map Query.text).mapM (table.readBack readRow) = some tables ∧
      tables.flatten = (queries.flatMap Query.rows).map visible := by
  induction queries with
  | nil => exact ⟨[], rfl, rfl⟩
  | cons query queries ih =>
      have behind := fun other member => reads other (List.mem_cons_of_mem query member)
      obtain ⟨tables, later, rows⟩ := ih behind
      have here := reads query List.mem_cons_self
      refine ⟨query.rows.map visible :: tables, ?_, ?_⟩
      · rw [List.map_cons, List.mapM_cons, later, here]
        rfl
      · rw [List.flatten_cons, rows, List.flatMap_cons, List.map_append]

theorem Transcribed.readBack {writer : DbWriter} (transcribed : Transcribed writer) :
    ∃ tables, (tradeTexts writer.trace).mapM (pumpfunTable.readBack readTradeRow) = some tables ∧
      tables.flatten = (committedTrades writer.trace).map Entry.untimed := by
  rw [← flatMap_tradeStatements, tradeTexts]
  exact readBack_statements transcribed.trades

theorem Transcribed.readBack_swaps {writer : DbWriter} (transcribed : Transcribed writer) :
    ∃ tables, (swapTexts writer.trace).mapM (raydiumTable.readBack readSwapRow) = some tables ∧
      tables.flatten = committedSwaps writer.trace := by
  obtain ⟨tables, texts, rows⟩ := readBack_statements transcribed.swaps
  refine ⟨tables, texts, ?_⟩
  rw [rows, flatMap_swapStatements, List.map_id]

/-- A run pops what the queue returns to its iterations. -/
theorem writerRun_popped {envs : List Iteration} {writer final : DbWriter}
    (execution : Execution.run writerStep writer envs = some final) :
    poppedEvents final.trace = poppedEvents writer.trace ++ envs.filterMap Iteration.popped := by
  induction envs generalizing writer with
  | nil =>
      cases execution
      exact (List.append_nil _).symm
  | cons env envs ih =>
      obtain ⟨middle, stepped, rest⟩ := Execution.run_cons_eq_some.mp execution
      rw [ih rest, iteration_popped (writerStep_eq_some.mp stepped), List.append_assoc]
      cases popped : env.popped with
      | none => rw [List.filterMap_cons_none popped, Option.toList_none, List.nil_append]
      | some event =>
          rw [List.filterMap_cons_some popped, Option.toList_some, List.singleton_append]

/-- Before the first append into a full batch, in every run of the writer that has memory for the
keys and pops events whose signatures are Base58 texts or missing, the texts of the statements that
it has committed can be read, and what they say, followed by the batches, is for each type what the
queue has returned, up to the timestamps of the trades. -/
theorem texts_of_popped {lastFlush : Timeval} {envs : List Iteration} {writer : DbWriter}
    (allocates : ∀ env ∈ envs, env.Admits fun flush => ∀ row key, flush.alloc row key = true)
    (typed : ∀ env ∈ envs, ∀ event, env.popped = some event → event.type ≠ .none)
    (signed : ∀ env ∈ envs, ∀ event, env.popped = some event → event.Signed)
    (execution : Execution.run writerStep (dbWriterStart lastFlush Metrics.init) envs =
      some writer) :
    ∃ trades swaps,
      (tradeTexts writer.trace).mapM (pumpfunTable.readBack readTradeRow) = some trades ∧
      (swapTexts writer.trace).mapM (raydiumTable.readBack readSwapRow) = some swaps ∧
      ((envs.filterMap Iteration.popped).filterMap Event.trade?).map Entry.untimed =
        trades.flatten ++ writer.pumpfunBatch.map Entry.untimed ∧
      (envs.filterMap Iteration.popped).filterMap Event.swap? =
        swaps.flatten ++ writer.raydiumBatch := by
  have accounted : Accounted writer := writerRun_preserves accounted_preserved allocates typed
    (dbWriterStart_accounted lastFlush) execution
  have transcribed : Transcribed writer := writerRun_preserves transcribed_preserved allocates
    signed (dbWriterStart_transcribed lastFlush _) execution
  obtain ⟨trades, readTrades, tradeRows⟩ := transcribed.readBack
  obtain ⟨swaps, readSwaps, swapRows⟩ := transcribed.readBack_swaps
  have popped : poppedEvents writer.trace = envs.filterMap Iteration.popped :=
    writerRun_popped execution
  refine ⟨trades, swaps, readTrades, readSwaps, ?_, ?_⟩
  · rw [← popped, accounted.trades, tradeRows, List.map_append]
  · rw [← popped, accounted.swaps, swapRows]

/-- An iteration that pops a swap while the database is down. -/
def refusedSwap : Iteration :=
  { refusedIteration with
    popped := some { Event.zero with data := .raydiumSwap largestSwap.record } }

/-- A trade and a swap that are stored after the database has come back. -/
theorem texts_of_popped_recovery :
    ∃ writer trades swaps, Execution.run writerStep (dbWriterStart ⟨0, 0⟩ Metrics.init)
        [refusedIteration, refusedSwap, recoveredIteration] = some writer ∧
      (tradeTexts writer.trace).length = 1 ∧ (swapTexts writer.trace).length = 1 ∧
      (tradeTexts writer.trace).mapM (pumpfunTable.readBack readTradeRow) = some trades ∧
      (swapTexts writer.trace).mapM (raydiumTable.readBack readSwapRow) = some swaps ∧
      (([refusedIteration, refusedSwap, recoveredIteration].filterMap
          Iteration.popped).filterMap Event.trade?).map Entry.untimed =
        trades.flatten ++ writer.pumpfunBatch.map Entry.untimed ∧
      ([refusedIteration, refusedSwap, recoveredIteration].filterMap
          Iteration.popped).filterMap Event.swap? = swaps.flatten ++ writer.raydiumBatch := by
  have outcome : (Execution.run writerStep (dbWriterStart ⟨0, 0⟩ Metrics.init)
      [refusedIteration, refusedSwap, recoveredIteration]).map (fun writer =>
        ((tradeTexts writer.trace).length, (swapTexts writer.trace).length)) = some (1, 1) := by
    decide +kernel
  obtain ⟨writer, execution, lengths⟩ := Option.map_eq_some_iff.mp outcome
  rw [Prod.mk.injEq] at lengths
  have each : ∀ property : Iteration → Prop, property refusedIteration → property refusedSwap →
      property recoveredIteration →
        ∀ env ∈ [refusedIteration, refusedSwap, recoveredIteration], property env := by
    intro property trade swap recovered
    simp only [List.forall_mem_cons]
    exact ⟨trade, swap, recovered, List.forall_mem_nil property⟩
  have allocates := each (fun env => env.Admits fun flush => ∀ row key, flush.alloc row key = true)
    ⟨fun _ _ => rfl, fun _ _ => rfl, fun _ _ => rfl⟩
    ⟨fun _ _ => rfl, fun _ _ => rfl, fun _ _ => rfl⟩
    ⟨fun _ _ => rfl, fun _ _ => rfl, fun _ _ => rfl⟩
  have typed := each (fun env => ∀ event, env.popped = some event → event.type ≠ .none)
    (fun event popped => by cases popped; exact EventType.noConfusion)
    (fun event popped => by cases popped; exact EventType.noConfusion) nofun
  have signed := each (fun env => ∀ event, env.popped = some event → event.Signed)
    (fun event popped => by cases popped; exact nofun)
    (fun event popped => by cases popped; exact nofun) nofun
  obtain ⟨trades, swaps, results⟩ := texts_of_popped allocates typed signed execution
  exact ⟨writer, trades, swaps, execution, lengths.1, lengths.2, results⟩

end YureiGeyser
