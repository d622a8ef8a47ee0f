import YureiGeyser.Library.Snapshot
import YureiGeyser.WriterClock

/-!
# The summary of the counters

`metrics_log_summary` loads one counter after the other while the writer thread counts on.  An
action is one atomic operation on a counter: an increment of the writer thread, or a load.
-/

namespace YureiGeyser

open Snapshot

/-- The counters that the writer thread increments, be it in `event_queue_pop`. -/
inductive Counter
  | eventsTotal
  | eventsPumpfun
  | eventsRaydium
  | queuePops
  | dbInsertsSuccess
  | dbInsertsFailed
  | dbBatches
  | dbReconnects
  deriving DecidableEq

/-- The value of a counter. -/
def Metrics.read (metrics : Metrics) : Counter → UInt64
  | .eventsTotal => metrics.eventsTotal
  | .eventsPumpfun => metrics.eventsPumpfun
  | .eventsRaydium => metrics.eventsRaydium
  | .queuePops => metrics.queuePops
  | .dbInsertsSuccess => metrics.dbInsertsSuccess
  | .dbInsertsFailed => metrics.dbInsertsFailed
  | .dbBatches => metrics.dbBatches
  | .dbReconnects => metrics.dbReconnects

/-! ## Increments in order -/

/-- The loop behind a commit of a number of events, which counts each of them twice, and then the
batch. -/
def countStored (stored : Counter) : ℕ → List Counter
  | 0 => [.dbBatches]
  | number + 1 => .dbInsertsSuccess :: stored :: countStored stored number

/-- The increments of a flush function. -/
def flushIncrements {α : Type} (stored : Counter) (env : FlushEnv) (conn : Bool)
    (batch : List (Entry α)) : List Counter :=
  (if batch.length ≠ 0 ∧ conn = false ∧ env.connectOk = true then [.dbReconnects] else []) ++
    if env.Executes conn batch then
      if env.execOk then countStored stored batch.length else [.dbInsertsFailed]
    else []

/-- The increments of a call of the writer thread, with those of its pop. -/
def WriterCall.increments (writer : DbWriter) : WriterCall → List Counter
  | .store _ => [.queuePops, .eventsTotal]
  | .flushPumpfun env => flushIncrements .eventsPumpfun env writer.conn writer.pumpfunBatch
  | .flushRaydium env => flushIncrements .eventsRaydium env writer.conn writer.raydiumBatch
  | _ => []

section Reads

variable {counter stored : Counter}

@[simp] theorem read_addDbLatency (us : UInt64) (metrics : Metrics) :
    (metrics.addDbLatency us).read counter = metrics.read counter := by
  cases counter <;> rfl

theorem read_incDbFailed (metrics : Metrics) :
    metrics.incDbFailed.read counter =
      metrics.read counter + UInt64.ofNat ([Counter.dbInsertsFailed].count counter) := by
  cases counter <;> simp [Metrics.read, Metrics.incDbFailed]

theorem read_incDbReconnect (metrics : Metrics) :
    metrics.incDbReconnect.read counter =
      metrics.read counter + UInt64.ofNat ([Counter.dbReconnects].count counter) := by
  cases counter <;> simp [Metrics.read, Metrics.incDbReconnect]

theorem count_countStored (number : ℕ) :
    (countStored stored number).count counter =
      (if .dbInsertsSuccess = counter then number else 0) +
        (if stored = counter then number else 0) + if .dbBatches = counter then 1 else 0 := by
  induction number with
  | zero =>
      rw [countStored, List.count_singleton]
      simp only [beq_iff_eq, ite_self, zero_add]
  | succ number ih =>
      rw [countStored, List.count_cons, List.count_cons, ih]
      simp only [beq_iff_eq]
      split_ifs <;> omega

theorem read_storedTrades (number : ℕ) (metrics : Metrics) :
    ((fun metrics : Metrics => metrics.incDbSuccess.incPumpfun)^[number] metrics).incDbBatch.read
        counter =
      metrics.read counter + UInt64.ofNat ((countStored .eventsPumpfun number).count counter) := by
  rw [iterate_incPumpfun, count_countStored]
  cases counter <;> simp [Metrics.read, Metrics.incDbBatch]

theorem read_storedSwaps (number : ℕ) (metrics : Metrics) :
    ((fun metrics : Metrics => metrics.incDbSuccess.incRaydium)^[number] metrics).incDbBatch.read
        counter =
      metrics.read counter + UInt64.ofNat ((countStored .eventsRaydium number).count counter) := by
  rw [iterate_incRaydium, count_countStored]
  cases counter <;> simp [Metrics.read, Metrics.incDbBatch]

/-- The increments of a flush lead to its counters. -/
theorem read_flushBatch {α : Type} {table : Table α} {count : Metrics → Metrics} {env : FlushEnv}
    {conn : Bool} {batch : List (Entry α)} {metrics : Metrics} {flushed : Flushed α}
    (stores : ∀ number metrics,
      ((fun metrics : Metrics => count metrics.incDbSuccess)^[number] metrics).incDbBatch.read
          counter =
        metrics.read counter + UInt64.ofNat ((countStored stored number).count counter))
    (ran : flushBatch table count env conn batch metrics = .ok flushed) :
    flushed.metrics.read counter =
      metrics.read counter +
        UInt64.ofNat ((flushIncrements stored env conn batch).count counter) := by
  rw [flushBatch] at ran
  split at ran
  · next empty =>
      cases ran
      have unexecuted : ¬ env.Executes conn batch :=
        fun executes => executes.1 (List.length_eq_zero_iff.mp empty)
      rw [flushIncrements, if_neg unexecuted, if_neg fun filled => filled.1 empty]
      simp
  · next filled =>
      obtain ⟨connected, kept, counted⟩ := ensureConnection_metrics env conn metrics
      generalize ensureConnection env conn metrics = outcome at ran connected kept counted
      obtain ⟨approved, conn', metrics'⟩ := outcome
      dsimp only at ran connected kept counted
      have reconnects : metrics'.read counter = metrics.read counter + UInt64.ofNat
          ((if batch.length ≠ 0 ∧ conn = false ∧ env.connectOk = true then
            [Counter.dbReconnects] else []).count counter) := by
        rw [counted]
        cases conn with
        | true => simp
        | false =>
            cases env.connectOk with
            | true => simpa [filled] using read_incDbReconnect metrics
            | false => simp
      rw [flushIncrements, List.count_append, UInt64.ofNat_add, ← UInt64.add_assoc, ← reconnects]
      split at ran
      · next refused =>
          cases ran
          have unexecuted : ¬ env.Executes conn batch := by
            rintro ⟨-, connects, -⟩
            rw [connected, connects] at refused
            cases refused
          simp [unexecuted]
      · next accepted =>
          split at ran
          · next unallocated =>
              cases ran
              have unexecuted : ¬ env.Executes conn batch := by
                rintro ⟨-, -, malloc⟩
                rw [malloc] at unallocated
                cases unallocated
              simp [unexecuted]
          · next allocated =>
              have executes : env.Executes conn batch := by
                refine ⟨fun nil => filled (List.length_eq_zero_iff.mpr nil), ?_, ?_⟩
                · rw [← connected]
                  simpa using accepted
                · simpa using allocated
              rw [if_pos executes]
              obtain ⟨query, -, rest⟩ := bind_ok ran
              cases exec : env.execOk with
              | false =>
                  rw [exec] at rest
                  cases rest
                  rw [read_incDbFailed, read_addDbLatency, if_neg Bool.false_ne_true]
              | true =>
                  rw [exec] at rest
                  cases rest
                  rw [stores, read_addDbLatency, if_pos rfl]

/-- The increments of a call lead to the counters of the writer; the pops are counted by the
queue. -/
theorem read_callStep {writer next : DbWriter} {call : WriterCall} (other : counter ≠ .queuePops)
    (taken : callStep writer call = some next) :
    next.metrics.read counter =
      writer.metrics.read counter + UInt64.ofNat ((call.increments writer).count counter) := by
  cases call with
  | store event =>
      have stored := toOption_eq_some.mp taken
      have counted : next.metrics = writer.metrics.incEventsTotal := by
        rw [appendEvent] at stored
        split at stored
        · rw [appendPumpfun] at stored
          split at stored <;> cases stored
          rfl
        · rw [appendRaydium] at stored
          split at stored <;> cases stored
          rfl
        · cases stored
          rfl
      rw [counted]
      cases counter <;> first | exact absurd rfl other | simp [Metrics.read, Metrics.incEventsTotal,
        WriterCall.increments]
  | flushPumpfun env =>
      have flushed := toOption_eq_some.mp taken
      obtain ⟨result, ran, -⟩ := flushBatch_outcome pumpfunTable Metrics.incPumpfun env writer.conn
        writer.pumpfunBatch writer.metrics
      rw [flushPumpfunBatch, ran] at flushed
      cases flushed
      exact read_flushBatch read_storedTrades ran
  | flushRaydium env =>
      have flushed := toOption_eq_some.mp taken
      obtain ⟨result, ran, -⟩ := flushBatch_outcome raydiumTable Metrics.incRaydium env writer.conn
        writer.raydiumBatch writer.metrics
      rw [flushRaydiumBatch, ran] at flushed
      cases flushed
      exact read_flushBatch read_storedSwaps ran
  | noteFlush tv | timer now =>
      cases taken
      simp [WriterCall.increments]

end Reads

/-! ## The writer and the summary -/

/-- The order of the loads of `metrics_log_summary`, those of `metrics_snapshot` first.  C leaves
the order of the last three open within their lines; no bound compares two of them. -/
def summaryOrder : List Counter :=
  [.eventsTotal, .eventsPumpfun, .eventsRaydium, .dbInsertsSuccess, .dbInsertsFailed, .dbBatches,
    .dbReconnects, .queuePops]

/-- The writer thread and the thread that prints the summary. -/
structure Summary where
  writer : DbWriter
  /-- The increments that are left of the call that the writer is in. -/
  pending : List Counter
  /-- How often each counter was incremented; the counter itself wraps. -/
  counts : Counter → ℕ
  reader : Reader Counter

/-- What a thread does. -/
inductive SummaryAction
  /-- The writer thread enters a call. -/
  | call (call : WriterCall)
  | increment
  /-- `metrics_log_summary` is called. -/
  | begin
  | load

namespace Summary

/-- Nothing has happened since `metrics_init`. -/
def start (lastFlush : Timeval) : Summary where
  writer := dbWriterStart lastFlush Metrics.init
  pending := []
  counts _ := 0
  reader := ⟨[], fun _ => 0⟩

/-- An atomic step. -/
def step (summary : Summary) : SummaryAction → Option Summary
  | .call call =>
      if summary.pending.isEmpty then
        (callStep summary.writer call).map fun writer =>
          { summary with writer, pending := call.increments summary.writer }
      else none
  | .increment =>
      match summary.pending with
      | [] => none
      | counter :: pending =>
          some { summary with
            pending
            counts := Function.update summary.counts counter (summary.counts counter + 1) }
  | .begin =>
      if summary.reader.todo.isEmpty then some { summary with reader := .start summaryOrder }
      else none
  | .load => (summary.reader.load summary.counts).map fun reader => { summary with reader }

/-- Every stored event is counted as a success first. -/
def storedBound : Bound Counter :=
  ⟨[.eventsPumpfun, .eventsRaydium], .dbInsertsSuccess, id⟩

/-- Every event is popped before it is counted. -/
def poppedBound : Bound Counter :=
  ⟨[.eventsTotal], .queuePops, id⟩

/-- A batch is counted behind its events. -/
def batchBound : Bound Counter :=
  ⟨[.dbInsertsSuccess], .dbBatches, fun batches => batchSize * (batches + 1)⟩

/-- The increments that are left count nothing that the summary must not see. -/
structure Leads (pending : List Counter) : Prop where
  stored : pending.count .dbInsertsSuccess ≤
    pending.count .eventsPumpfun + pending.count .eventsRaydium
  popped : pending.count .queuePops ≤ pending.count .eventsTotal
  batches : pending.count .dbBatches ≤ 1

/-- However far the writer gets, what is left leads. -/
def Orderly : List Counter → Prop
  | [] => True
  | counter :: pending => Leads (counter :: pending) ∧ Orderly pending

theorem Orderly.leads {pending : List Counter} (orderly : Orderly pending) : Leads pending := by
  cases pending with
  | nil => exact ⟨Nat.le_refl 0, Nat.le_refl 0, Nat.zero_le 1⟩
  | cons counter pending => exact orderly.1

/-- A whole call is balanced. -/
structure Whole (pending : List Counter) : Prop where
  stored : pending.count .dbInsertsSuccess =
    pending.count .eventsPumpfun + pending.count .eventsRaydium
  popped : pending.count .queuePops = pending.count .eventsTotal
  batched : pending.count .dbInsertsSuccess ≤ batchSize * pending.count .dbBatches

theorem countStored_orderly {stored : Counter}
    (typed : stored = .eventsPumpfun ∨ stored = .eventsRaydium) (number : ℕ) :
    Orderly (countStored stored number) := by
  induction number with
  | zero => exact ⟨⟨by decide, by decide, by decide⟩, trivial⟩
  | succ number ih =>
      refine ⟨?_, ?_, ih⟩
      · rcases typed with rfl | rfl <;> constructor <;> simp [count_countStored]
      · rcases typed with rfl | rfl <;> constructor <;> simp [count_countStored]

theorem countStored_whole {stored : Counter}
    (typed : stored = .eventsPumpfun ∨ stored = .eventsRaydium) {number : ℕ}
    (few : number ≤ batchSize) : Whole (countStored stored number) := by
  rcases typed with rfl | rfl <;> constructor <;> simp [count_countStored, few]

/-- A reconnect is counted apart. -/
theorem Orderly.reconnect {pending : List Counter} (orderly : Orderly pending) :
    Orderly (.dbReconnects :: pending) := by
  obtain ⟨stored, popped, batches⟩ := orderly.leads
  refine ⟨⟨?_, ?_, ?_⟩, orderly⟩ <;> simpa using by assumption

theorem Whole.reconnect {pending : List Counter} (whole : Whole pending) :
    Whole (.dbReconnects :: pending) := by
  obtain ⟨stored, popped, batched⟩ := whole
  constructor <;> simpa using by assumption

theorem flushIncrements_orderly {α : Type} {stored : Counter}
    (typed : stored = .eventsPumpfun ∨ stored = .eventsRaydium) (env : FlushEnv) (conn : Bool)
    {batch : List (Entry α)} (few : batch.length ≤ batchSize) :
    Orderly (flushIncrements stored env conn batch) ∧
      Whole (flushIncrements stored env conn batch) := by
  have nothing : Orderly [] ∧ Whole [] := ⟨trivial, rfl, rfl, Nat.zero_le _⟩
  have failed : Orderly [.dbInsertsFailed] ∧ Whole [.dbInsertsFailed] := by
    refine ⟨⟨⟨?_, ?_, ?_⟩, trivial⟩, ?_, ?_, ?_⟩ <;> decide
  have behind : ∀ rest, Orderly rest ∧ Whole rest →
      Orderly ((if batch.length ≠ 0 ∧ conn = false ∧ env.connectOk = true then
          [Counter.dbReconnects] else []) ++ rest) ∧
        Whole ((if batch.length ≠ 0 ∧ conn = false ∧ env.connectOk = true then
          [Counter.dbReconnects] else []) ++ rest) := by
    rintro rest ⟨orderly, whole⟩
    split
    · exact ⟨orderly.reconnect, whole.reconnect⟩
    · exact ⟨orderly, whole⟩
  refine behind _ ?_
  split
  · split
    · exact ⟨countStored_orderly typed _, countStored_whole typed few⟩
    · exact failed
  · exact nothing

theorem increments_orderly {writer : DbWriter} (call : WriterCall)
    (few : writer.pumpfunBatch.length ≤ batchSize ∧ writer.raydiumBatch.length ≤ batchSize) :
    Orderly (call.increments writer) ∧ Whole (call.increments writer) := by
  cases call with
  | store event =>
      rw [WriterCall.increments]
      refine ⟨⟨⟨?_, ?_, ?_⟩, ⟨?_, ?_, ?_⟩, trivial⟩, ?_, ?_, ?_⟩ <;> decide
  | flushPumpfun env => exact flushIncrements_orderly (.inl rfl) env writer.conn few.1
  | flushRaydium env => exact flushIncrements_orderly (.inr rfl) env writer.conn few.2
  | noteFlush tv | timer now => exact ⟨trivial, rfl, rfl, Nat.zero_le _⟩

/-- A call keeps the batches in their arrays. -/
theorem length_callStep {writer next : DbWriter} {call : WriterCall}
    (taken : callStep writer call = some next)
    (few : writer.pumpfunBatch.length ≤ batchSize ∧ writer.raydiumBatch.length ≤ batchSize) :
    next.pumpfunBatch.length ≤ batchSize ∧ next.raydiumBatch.length ≤ batchSize := by
  have flushes := @FlushesPreserve.of_lengths (fun _ => True) (· ≤ batchSize) (· ≤ batchSize)
    (Nat.zero_le batchSize) (Nat.zero_le batchSize)
  cases call with
  | store event =>
      have stored := toOption_eq_some.mp taken
      rw [appendEvent] at stored
      split at stored
      · rw [appendPumpfun] at stored
        split at stored
        · next room =>
            cases stored
            rw [List.length_append]
            exact ⟨room, few.2⟩
        · cases stored
      · rw [appendRaydium] at stored
        split at stored
        · next room =>
            cases stored
            rw [List.length_append]
            exact ⟨few.1, room⟩
        · cases stored
      · cases stored
        exact few
  | flushPumpfun env =>
      exact flushes.flushPumpfun env writer next trivial few (toOption_eq_some.mp taken)
  | flushRaydium env =>
      exact flushes.flushRaydium env writer next trivial few (toOption_eq_some.mp taken)
  | noteFlush tv | timer now =>
      cases taken
      exact few

theorem ordered : ∀ bound ∈ [storedBound, poppedBound, batchBound], bound.Ordered summaryOrder := by
  simp only [List.forall_mem_cons]
  exact ⟨by decide, by decide, by decide, List.forall_mem_nil _⟩

/-- The count of a counter at the end of the call. -/
def settled (summary : Summary) (counter : Counter) : ℕ :=
  summary.counts counter + summary.pending.count counter

/-- What is invariant. -/
structure Sound (summary : Summary) : Prop where
  stored : summary.settled .dbInsertsSuccess =
    summary.settled .eventsPumpfun + summary.settled .eventsRaydium
  popped : summary.settled .queuePops = summary.settled .eventsTotal
  batched : summary.settled .dbInsertsSuccess ≤ batchSize * summary.settled .dbBatches
  orderly : Orderly summary.pending
  few : summary.writer.pumpfunBatch.length ≤ batchSize ∧
    summary.writer.raydiumBatch.length ≤ batchSize
  metrics : ∀ counter ≠ .queuePops,
    summary.writer.metrics.read counter = UInt64.ofNat (summary.settled counter)
  kept : ∀ bound ∈ [storedBound, poppedBound, batchBound],
    bound.Kept summaryOrder summary.counts summary.reader

variable {summary next : Summary}

theorem start_sound (lastFlush : Timeval) : (start lastFlush).Sound where
  stored := rfl
  popped := rfl
  batched := Nat.zero_le _
  orderly := trivial
  few := ⟨Nat.zero_le _, Nat.zero_le _⟩
  metrics counter _ := by cases counter <;> rfl
  kept bound _ := ⟨(List.mem_tails _ _).mpr List.nil_suffix, fun _ => Nat.le_refl 0,
    fun _ => bound.holds_zero⟩

/-- The bounds hold at every moment. -/
theorem Sound.holds (sound : summary.Sound) :
    ∀ bound ∈ [storedBound, poppedBound, batchBound], bound.Holds summary.counts := by
  obtain ⟨stored, popped, batched, orderly, -, -, -⟩ := sound
  obtain ⟨ahead, counted, one⟩ := orderly.leads
  simp only [settled] at stored popped batched
  simp only [List.forall_mem_cons, Bound.Holds, storedBound, poppedBound, batchBound, List.map_cons,
    List.map_nil, List.sum_cons, List.sum_nil, id]
  refine ⟨?_, ?_, ?_, List.forall_mem_nil _⟩
  · omega
  · omega
  · have room : batchSize * (summary.counts .dbBatches + summary.pending.count .dbBatches) ≤
        batchSize * (summary.counts .dbBatches + 1) :=
      Nat.mul_le_mul_left batchSize (Nat.add_le_add_left one _)
    omega

theorem sound_step {action : SummaryAction} (sound : summary.Sound)
    (taken : summary.step action = some next) : next.Sound := by
  have holds := sound.holds
  obtain ⟨stored, popped, batched, orderly, few, metrics, kept⟩ := sound
  cases action with
  | call call =>
      obtain ⟨idle, called⟩ := Option.ite_none_right_eq_some.mp taken
      obtain ⟨writer, went, rfl⟩ := Option.map_eq_some_iff.mp called
      obtain ⟨orderly', whole⟩ := increments_orderly call few
      rw [List.isEmpty_iff] at idle
      simp only [settled, idle, List.count_nil, Nat.add_zero] at stored popped batched metrics
      refine ⟨?_, ?_, ?_, orderly', length_callStep went few, fun counter other => ?_, kept⟩
      · have more := whole.stored
        simp only [settled]
        omega
      · have more := whole.popped
        simp only [settled]
        omega
      · have more := whole.batched
        simp only [settled, Nat.mul_add]
        omega
      · rw [read_callStep other went, metrics counter other, ← UInt64.ofNat_add]
        rfl
  | increment =>
      obtain ⟨writer, pending, counts, reader⟩ := summary
      cases pending with
      | nil => cases taken
      | cons counter pending =>
          cases taken
          have same : ∀ other, Function.update counts counter (counts counter + 1) other +
              pending.count other = counts other + (counter :: pending).count other := by
            intro other
            rw [List.count_cons]
            by_cases here : other = counter
            · subst here
              rw [Function.update_self, if_pos (beq_self_eq_true other)]
              omega
            · rw [Function.update_of_ne here, if_neg fun equal => here (beq_iff_eq.mp equal).symm]
              rfl
          simp only [settled, ← same] at stored popped batched metrics
          refine ⟨stored, popped, batched, orderly.2, few, metrics, fun bound member => ?_⟩
          refine (kept bound member).grow fun key => ?_
          dsimp only
          by_cases here : key = counter
          · subst here
            rw [Function.update_self]
            exact Nat.le_succ _
          · exact Nat.le_of_eq (Function.update_of_ne here _ _).symm
  | begin =>
      obtain ⟨-, ⟨⟩⟩ := Option.ite_none_right_eq_some.mp taken
      exact ⟨stored, popped, batched, orderly, few, metrics,
        fun bound _ => bound.kept_start summaryOrder summary.counts⟩
  | load =>
      obtain ⟨reader, loaded, rfl⟩ := Option.map_eq_some_iff.mp taken
      refine ⟨stored, popped, batched, orderly, few, metrics, fun bound member => ?_⟩
      exact (kept bound member).load (ordered bound member) (holds bound member) loaded

theorem sound_run {lastFlush : Timeval} {actions : List SummaryAction}
    (execution : Execution.run step (start lastFlush) actions = some summary) : summary.Sound :=
  Execution.run_invariant (fun _ _ _ => sound_step) (start_sound lastFlush) execution

/-- In every interleaving of the loads of `metrics_log_summary` with the increments of the writer
thread, the stored events that a summary shows are not more than the successes, the events not more
than the pops, and the successes not more than the events of the batches and of one more.  Between
two calls of the writer the counters are those of its flushes.  The writer's part of a run ends at
its first undefined step, an append into a full batch. -/
theorem summary_consistent {lastFlush : Timeval} {actions : List SummaryAction}
    (execution : Execution.run step (start lastFlush) actions = some summary) :
    (.dbInsertsSuccess ∉ summary.reader.todo →
        summary.reader.seen .eventsPumpfun + summary.reader.seen .eventsRaydium ≤
          summary.reader.seen .dbInsertsSuccess) ∧
      (.queuePops ∉ summary.reader.todo →
        summary.reader.seen .eventsTotal ≤ summary.reader.seen .queuePops) ∧
      (.dbBatches ∉ summary.reader.todo →
        summary.reader.seen .dbInsertsSuccess ≤
          batchSize * (summary.reader.seen .dbBatches + 1)) ∧
      (summary.pending = [] → ∀ counter ≠ .queuePops,
        summary.writer.metrics.read counter = UInt64.ofNat (summary.counts counter)) := by
  obtain ⟨-, -, -, -, -, metrics, kept⟩ := sound_run execution
  refine ⟨fun loaded => ?_, fun loaded => ?_, fun loaded => ?_, fun idle counter other => ?_⟩
  · exact (kept storedBound (by simp)).holds loaded
  · exact (kept poppedBound (by simp)).holds loaded
  · exact (kept batchBound (by simp)).holds loaded
  · have known := metrics counter other
    rw [settled, idle, List.count_nil, Nat.add_zero] at known
    exact known

/-- A summary that begins before a trade is popped and ends behind its commit. -/
def watchedTrade : List SummaryAction :=
  [[.begin, .load], ((timedCalls ⟨11, 0⟩).take 1).map .call, [.increment, .increment],
    [.call (.flushPumpfun (timedFlush ⟨11, 0⟩ ⟨11, 0⟩)), .increment, .increment, .load,
      .increment, .increment],
    List.replicate 6 .load].flatten

theorem summary_consistent_watchedTrade :
    ∃ summary, Execution.run step (start ⟨10, 0⟩) watchedTrade = some summary ∧
      summary.reader.seen .dbInsertsSuccess = 1 ∧
      summary.reader.seen .eventsPumpfun + summary.reader.seen .eventsRaydium ≤
        summary.reader.seen .dbInsertsSuccess ∧
      summary.reader.seen .eventsTotal ≤ summary.reader.seen .queuePops ∧
      summary.reader.seen .dbInsertsSuccess ≤
        batchSize * (summary.reader.seen .dbBatches + 1) ∧
      ∀ counter ≠ .queuePops,
        summary.writer.metrics.read counter = UInt64.ofNat (summary.counts counter) := by
  have outcome : (Execution.run step (start ⟨10, 0⟩) watchedTrade).map (fun summary =>
      (summary.reader.todo, summary.pending, summary.reader.seen .dbInsertsSuccess)) =
      some ([], [], 1) := by
    decide +kernel
  obtain ⟨summary, execution, observed⟩ := Option.map_eq_some_iff.mp outcome
  obtain ⟨loaded, idle, seen⟩ : summary.reader.todo = [] ∧ summary.pending = [] ∧
      summary.reader.seen .dbInsertsSuccess = 1 := by
    simpa using observed
  obtain ⟨stored, popped, batched, metrics⟩ := summary_consistent execution
  rw [loaded] at stored popped batched
  exact ⟨summary, execution, seen, stored List.not_mem_nil, popped List.not_mem_nil,
    batched List.not_mem_nil, metrics idle⟩

end Summary

end YureiGeyser
