import YureiGeyser.WriterRuns

/-!
# The clock of the writer

The writer measures its flushes and the time since the last one with `gettimeofday`, which goes
back when the system time is set.  A run is a list of the calls that `db_writer_main` is made of,
each with its own readings.
-/

namespace YureiGeyser

namespace Timeval

/-- The microseconds since the epoch. -/
def us (tv : Timeval) : ℤ :=
  tv.tvSec * 1000000 + tv.tvUsec

/-- What `gettimeofday` promises of a reading: a time behind the epoch in seconds and microseconds,
and a clock that is good for 64 bits of microseconds. -/
structure Valid (tv : Timeval) : Prop where
  sec_nonneg : 0 ≤ tv.tvSec
  usec_nonneg : 0 ≤ tv.tvUsec
  usec_lt : tv.tvUsec < 1000000
  us_lt : tv.us < 2 ^ 63

end Timeval

/-- A call in the loop of `db_writer_main`. -/
inductive WriterCall
  /-- An event is popped and appended to the batch of its type. -/
  | store (event : Event)
  | flushPumpfun (env : FlushEnv)
  | flushRaydium (env : FlushEnv)
  /-- `flush_all_batches` notes the time. -/
  | noteFlush (tv : Timeval)
  /-- `should_flush_timer`. -/
  | timer (now : Timeval)

/-- An event is appended to the batch of its type. -/
def appendEvent (event : Event) (writer : DbWriter) : Except Fault DbWriter :=
  match event.data with
  | .pumpfunTrade trade => appendPumpfun (event.entry trade) writer
  | .raydiumSwap swap => appendRaydium (event.entry swap) writer
  | .none => .ok writer

/-- A call as a step of a run. -/
def callStep (writer : DbWriter) : WriterCall → Option DbWriter
  | .store event => (appendEvent event (writer.pop event)).toOption
  | .flushPumpfun env => (flushPumpfunBatch env writer).toOption
  | .flushRaydium env => (flushRaydiumBatch env writer).toOption
  | .noteFlush tv => some { writer with lastFlush := tv }
  | .timer _ => some writer

/-- The calls of an iteration that pops an event, up to the timer. -/
def Iteration.storeCalls (env : Iteration) (event : Event) (writer : DbWriter) :
    List WriterCall :=
  match event.data with
  | .pumpfunTrade _ =>
      .store event :: if writer.pumpfunBatch.length + 1 ≥ batchSize then
        [.flushPumpfun env.sizeFlush] else []
  | .raydiumSwap _ =>
      .store event :: if writer.raydiumBatch.length + 1 ≥ batchSize then
        [.flushRaydium env.sizeFlush] else []
  | .none => [.store event]

/-- The timer and the calls of `flush_all_batches`. -/
def Iteration.timerCalls (env : Iteration) (writer : DbWriter) : List WriterCall :=
  .timer env.now :: if shouldFlushTimer env.now writer then
    [.flushPumpfun env.timerFlush.pumpfun, .flushRaydium env.timerFlush.raydium,
      .noteFlush env.timerFlush.lastFlush] else []

/-- The calls of an iteration. -/
def Iteration.calls (env : Iteration) (writer : DbWriter) : List WriterCall :=
  match env.popped with
  | none => env.timerCalls writer
  | some event => env.storeCalls event writer ++ env.timerCalls writer

/-- A latency that was added is no more than the larger reading in microseconds. -/
def FlushEnv.Bounds (env : FlushEnv) (before after : Metrics) : Prop :=
  (after.totalDbLatencyUs - before.totalDbLatencyUs).toNat ≤
    1000 * max (getTimeMs env.startTime).toNat (getTimeMs env.endTime).toNat

/-- What the clock arithmetic of a call should give. -/
def ClockSound (writer : DbWriter) : WriterCall → Prop
  | .flushPumpfun env => ∀ next, flushPumpfunBatch env writer = .ok next →
      env.Bounds writer.metrics next.metrics
  | .flushRaydium env => ∀ next, flushRaydiumBatch env writer = .ok next →
      env.Bounds writer.metrics next.metrics
  | .timer now => shouldFlushTimer now writer = true →
      writer.lastFlush.us + 1000 * (flushIntervalMs.toNat - 1) ≤ now.us
  | _ => True

/-- The end of a flush is in the millisecond of its start or in a later one. -/
def FlushEnv.Steady (env : FlushEnv) : Prop :=
  env.startTime.us / 1000 ≤ env.endTime.us / 1000

/-- The clock does not go back in a call: not by a millisecond during a statement, and neither by a
millisecond nor into an earlier second since the last flush. -/
def ClockSteady (writer : DbWriter) : WriterCall → Prop
  | .flushPumpfun env => env.Executes writer.conn writer.pumpfunBatch → env.Steady
  | .flushRaydium env => env.Executes writer.conn writer.raydiumBatch → env.Steady
  | .timer now => writer.lastFlush.tvSec < now.tvSec ∨
      writer.lastFlush.tvSec = now.tvSec ∧ writer.lastFlush.tvUsec < now.tvUsec + 1000
  | _ => True

/-- The readings of a call are readings of the clock. -/
def WriterCall.Valid : WriterCall → Prop
  | .flushPumpfun env => env.startTime.Valid ∧ env.endTime.Valid
  | .flushRaydium env => env.startTime.Valid ∧ env.endTime.Valid
  | .noteFlush tv => tv.Valid
  | .timer now => now.Valid
  | .store _ => True

/-! ## Iterations as calls -/

theorem toOption_bind {α β : Type} (value : Except Fault α) (next : α → Except Fault β) :
    (value >>= next).toOption = value.toOption >>= fun result => (next result).toOption := by
  cases value <;> rfl

theorem run_timerCalls (env : Iteration) {writer earlier : DbWriter}
    (same : earlier.lastFlush = writer.lastFlush) :
    Execution.run callStep writer (env.timerCalls earlier) =
      (flushOnTimer env writer).toOption := by
  have fires : shouldFlushTimer env.now earlier = shouldFlushTimer env.now writer := by
    rw [shouldFlushTimer, shouldFlushTimer, same]
  rw [Iteration.timerCalls, fires, flushOnTimer, Execution.run_cons]
  simp only [callStep, Option.bind_eq_bind, Option.bind_some]
  split
  · rw [flushAllBatches, toOption_bind, Execution.run_cons]
    congr 1
    funext flushed
    rw [toOption_bind, Execution.run_cons]
    rfl
  · rfl

/-- A flush that may follow an appended event. -/
theorem run_flushIf {call : WriterCall} {full : Prop} [Decidable full]
    {flush : DbWriter → Except Fault DbWriter}
    (calls : ∀ writer, callStep writer call = (flush writer).toOption) (writer : DbWriter) :
    Execution.run callStep writer (if full then [call] else []) =
      (if full then flush writer else .ok writer).toOption := by
  split
  · rw [Execution.run_singleton, calls]
  · rfl

theorem run_storeCalls (env : Iteration) (event : Event) (writer : DbWriter) :
    Execution.run callStep writer (env.storeCalls event writer) =
      (storeEvent env event (writer.pop event)).toOption := by
  rw [Iteration.storeCalls, storeEvent]
  cases data : event.data with
  | none =>
      rw [Execution.run_singleton]
      simp only [callStep, appendEvent, data]
  | pumpfunTrade trade =>
      rw [toOption_bind, Execution.run_cons]
      simp only [callStep, appendEvent, data, appendPumpfun]
      split
      · change Execution.run callStep _ _ = Except.toOption (if _ then _ else _)
        rw [List.length_append, List.length_singleton]
        exact run_flushIf (fun _ => rfl) _
      · rfl
  | raydiumSwap swap =>
      rw [toOption_bind, Execution.run_cons]
      simp only [callStep, appendEvent, data, appendRaydium]
      split
      · change Execution.run callStep _ _ = Except.toOption (if _ then _ else _)
        rw [List.length_append, List.length_singleton]
        exact run_flushIf (fun _ => rfl) _
      · rfl

/-- The flushes leave the time of the last flush alone. -/
theorem lastFlush_storeEvent {env : Iteration} {event : Event} {writer next : DbWriter}
    (stored : storeEvent env event writer = .ok next) : next.lastFlush = writer.lastFlush := by
  rcases storeEvent_cases stored with ⟨trade, -, -, outcome⟩ | ⟨swap, -, -, outcome⟩ | ⟨-, rfl⟩
  · rcases outcome with ⟨-, flushed⟩ | ⟨-, rfl⟩
    · obtain ⟨result, -, settled⟩ := flushPumpfunBatch_ok env.sizeFlush
        { writer with pumpfunBatch := writer.pumpfunBatch ++ [event.entry trade] }
      rw [settled] at flushed
      cases flushed
      rfl
    · rfl
  · rcases outcome with ⟨-, flushed⟩ | ⟨-, rfl⟩
    · obtain ⟨result, -, settled⟩ := flushRaydiumBatch_ok env.sizeFlush
        { writer with raydiumBatch := writer.raydiumBatch ++ [event.entry swap] }
      rw [settled] at flushed
      cases flushed
      rfl
    · rfl
  · rfl

/-- An iteration is the run of its calls. -/
theorem run_calls (env : Iteration) (writer : DbWriter) :
    Execution.run callStep writer (env.calls writer) = writerStep writer env := by
  rw [Iteration.calls, writerStep, iteration]
  cases env.popped with
  | none => exact run_timerCalls env rfl
  | some event =>
      rw [Execution.run_append, run_storeCalls, toOption_bind]
      cases stored : storeEvent env event (writer.pop event) with
      | error fault => rfl
      | ok middle => exact run_timerCalls env (lastFlush_storeEvent stored).symm

/-! ## Readings -/

theorem toNat_ofInt (value : ℤ) : ((UInt64.ofInt value).toNat : ℤ) = value % 2 ^ 64 := by
  have nonneg : 0 ≤ value % 2 ^ 64 := Int.emod_nonneg value (by norm_num)
  have lt : value % 2 ^ 64 < 2 ^ 64 := Int.emod_lt_of_pos value (by norm_num)
  rw [UInt64.ofInt, UInt64.toNat_ofNat']
  omega

/-- The milliseconds of a reading do not wrap. -/
theorem toNat_getTimeMs {tv : Timeval} (valid : tv.Valid) :
    ((getTimeMs tv).toNat : ℤ) = tv.us / 1000 := by
  obtain ⟨sec_nonneg, usec_nonneg, usec_lt, us_lt⟩ := valid
  have thousand : (1000 : UInt64) = UInt64.ofInt 1000 := rfl
  rw [Timeval.us] at us_lt ⊢
  rw [getTimeMs, thousand, ← UInt64.ofInt_mul, ← UInt64.ofInt_add, toNat_ofInt,
    Int.tdiv_eq_ediv_of_nonneg usec_nonneg]
  omega

/-- The latency is bounded by the larger reading exactly when the difference does not wrap. -/
theorem latency_le_iff {start finish : UInt64} (small : 2000 * start.toNat < 2 ^ 64) :
    ((finish - start) * 1000).toNat ≤ 1000 * max start.toNat finish.toNat ↔
      start.toNat ≤ finish.toNat := by
  have finish_lt := finish.toNat_lt
  rw [UInt64.toNat_mul, UInt64.toNat_sub]
  have thousand : (1000 : UInt64).toNat = 1000 := rfl
  rw [thousand]
  rcases Nat.lt_or_ge finish.toNat start.toNat with back | forth
  · have wrapped : (2 ^ 64 - start.toNat + finish.toNat) % 2 ^ 64 * 1000 =
        2 ^ 64 - 1000 * (start.toNat - finish.toNat) + 999 * 2 ^ 64 := by omega
    have positive : 2 ^ 64 - 1000 * (start.toNat - finish.toNat) < 2 ^ 64 := by omega
    rw [wrapped, Nat.add_mul_mod_self_right, Nat.mod_eq_of_lt positive, Nat.max_eq_left back.le]
    omega
  · have plain : (2 ^ 64 - start.toNat + finish.toNat) % 2 ^ 64 =
        finish.toNat - start.toNat := by omega
    rw [plain, Nat.max_eq_right forth]
    have product := Nat.mod_le ((finish.toNat - start.toNat) * 1000) (2 ^ 64)
    omega

theorem bounds_iff {env : FlushEnv} (start : env.startTime.Valid) (finish : env.endTime.Valid) :
    ((getTimeMs env.endTime - getTimeMs env.startTime) * 1000).toNat ≤
        1000 * max (getTimeMs env.startTime).toNat (getTimeMs env.endTime).toNat ↔
      env.Steady := by
  have start_ms := toNat_getTimeMs start
  have finish_ms := toNat_getTimeMs finish
  have us_lt := start.us_lt
  rw [latency_le_iff (by omega), FlushEnv.Steady, ← start_ms, ← finish_ms, Int.ofNat_le]

/-- Division truncates towards zero. -/
theorem tdiv_of_neg {value : ℤ} (negative : value < 0) :
    value.tdiv 1000 = -(-value / 1000) := by
  have opposite : 0 ≤ -value := by omega
  rw [← Int.tdiv_eq_ediv_of_nonneg opposite, Int.neg_tdiv, neg_neg]

/-- A difference is at least a number of milliseconds once it is negative or really so large. -/
theorem le_toNat_ofInt_iff {value : ℤ} (above : -2 ^ 63 ≤ value) (below : value < 2 ^ 63)
    {limit : ℕ} (small : limit ≤ 2 ^ 63) :
    limit ≤ (UInt64.ofInt value).toNat ↔ value < 0 ∨ (limit : ℤ) ≤ value := by
  have converted := toNat_ofInt value
  rcases lt_or_ge value 0 with negative | nonneg
  · have wrapped : value % 2 ^ 64 = value + 2 ^ 64 := by omega
    omega
  · rw [Int.emod_eq_of_lt nonneg (by omega)] at converted
    omega

/-- The timer needs the milliseconds since the last flush to be positive. -/
theorem timer_iff {writer : DbWriter} {now : Timeval} (last : writer.lastFlush.Valid)
    (valid : now.Valid) : ClockSound writer (.timer now) ↔ ClockSteady writer (.timer now) := by
  obtain ⟨sec_nonneg, usec_nonneg, usec_lt, us_lt⟩ := valid
  obtain ⟨last_sec_nonneg, last_usec_nonneg, last_usec_lt, last_us_lt⟩ := last
  have interval : flushIntervalMs.toNat = 50 := rfl
  rw [Timeval.us] at us_lt last_us_lt
  rw [ClockSound, ClockSteady, shouldFlushTimer, decide_eq_true_iff, ge_iff_le,
    UInt64.le_iff_toNat_le, interval, Timeval.us, Timeval.us]
  rcases lt_or_ge (now.tvUsec - writer.lastFlush.tvUsec) 0 with before | later
  · rw [tdiv_of_neg before, le_toNat_ofInt_iff (by omega) (by omega) (by decide)]
    omega
  · rw [Int.tdiv_eq_ediv_of_nonneg later, le_toNat_ofInt_iff (by omega) (by omega) (by decide)]
    omega

/-! ## Calls -/

section Flush

variable {α : Type} {table : Table α} {count : Metrics → Metrics} {env : FlushEnv} {conn : Bool}
  {batch : List (Entry α)} {metrics : Metrics}

theorem latency_iterate (keeps : ∀ metrics, (count metrics).totalDbLatencyUs = metrics.totalDbLatencyUs)
    (number : ℕ) (metrics : Metrics) :
    ((fun metrics => count metrics.incDbSuccess)^[number] metrics).totalDbLatencyUs =
      metrics.totalDbLatencyUs := by
  induction number with
  | zero => rfl
  | succ number ih =>
      rw [Function.iterate_succ_apply', keeps]
      exact ih

/-- The latency that a flush function adds. -/
theorem flushBatch_latency
    (keeps : ∀ metrics, (count metrics).totalDbLatencyUs = metrics.totalDbLatencyUs)
    {flushed : Flushed α} (ran : flushBatch table count env conn batch metrics = .ok flushed) :
    flushed.metrics.totalDbLatencyUs - metrics.totalDbLatencyUs =
      if env.Executes conn batch then
        (getTimeMs env.endTime - getTimeMs env.startTime) * 1000
      else 0 := by
  split
  · next executes =>
      obtain ⟨query, built, -⟩ := table.buildQuery_ok env.alloc batch
      obtain ⟨middle, reconnects, result⟩ := flushBatch_of_executes table count metrics executes built
      have same : middle.totalDbLatencyUs = metrics.totalDbLatencyUs := by
        rcases reconnects with rfl | rfl <;> rfl
      rw [result] at ran
      cases ran
      split
      · simp only [Metrics.incDbBatch, latency_iterate keeps, Metrics.addDbLatency, same]
        rw [UInt64.add_comm, UInt64.add_sub_cancel]
      · simp only [Metrics.incDbFailed, Metrics.addDbLatency, same]
        rw [UInt64.add_comm, UInt64.add_sub_cancel]
  · next unexecuted =>
      obtain ⟨ok, conn', metrics', result, reconnects⟩ :=
        flushBatch_of_not_executes table count metrics unexecuted
      rw [result] at ran
      cases ran
      rcases reconnects with rfl | rfl <;> exact UInt64.sub_self _

theorem flushBatch_bounds_iff
    (keeps : ∀ metrics, (count metrics).totalDbLatencyUs = metrics.totalDbLatencyUs)
    (start : env.startTime.Valid) (finish : env.endTime.Valid) {flushed : Flushed α}
    (ran : flushBatch table count env conn batch metrics = .ok flushed) :
    env.Bounds metrics flushed.metrics ↔ (env.Executes conn batch → env.Steady) := by
  rw [FlushEnv.Bounds, flushBatch_latency keeps ran]
  split
  · next executes => rw [bounds_iff start finish, forall_prop_of_true executes]
  · next unexecuted => exact iff_of_true (Nat.zero_le _) fun executes => absurd executes unexecuted

end Flush

/-- The arithmetic of a call is right exactly when the clock is steady. -/
theorem clockSound_iff_clockSteady {writer : DbWriter} {call : WriterCall}
    (last : writer.lastFlush.Valid) (valid : call.Valid) :
    ClockSound writer call ↔ ClockSteady writer call := by
  cases call with
  | store event => exact Iff.rfl
  | noteFlush tv => exact Iff.rfl
  | timer now => exact timer_iff last valid
  | flushPumpfun env =>
      have keeps : ∀ metrics : Metrics,
          metrics.incPumpfun.totalDbLatencyUs = metrics.totalDbLatencyUs := fun _ => rfl
      obtain ⟨flushed, ran, -⟩ := flushBatch_outcome pumpfunTable Metrics.incPumpfun env writer.conn
        writer.pumpfunBatch writer.metrics
      have result : flushPumpfunBatch env writer = .ok (writer.settlePumpfun flushed) := by
        rw [flushPumpfunBatch, ran]
        rfl
      simp only [ClockSound, ClockSteady, result, Except.ok.injEq, forall_eq']
      exact flushBatch_bounds_iff keeps valid.1 valid.2 ran
  | flushRaydium env =>
      have keeps : ∀ metrics : Metrics,
          metrics.incRaydium.totalDbLatencyUs = metrics.totalDbLatencyUs := fun _ => rfl
      obtain ⟨flushed, ran, -⟩ := flushBatch_outcome raydiumTable Metrics.incRaydium env writer.conn
        writer.raydiumBatch writer.metrics
      have result : flushRaydiumBatch env writer = .ok (writer.settleRaydium flushed) := by
        rw [flushRaydiumBatch, ran]
        rfl
      simp only [ClockSound, ClockSteady, result, Except.ok.injEq, forall_eq']
      exact flushBatch_bounds_iff keeps valid.1 valid.2 ran

theorem lastFlush_appendEvent {event : Event} {writer next : DbWriter}
    (appended : appendEvent event writer = .ok next) : next.lastFlush = writer.lastFlush := by
  rw [appendEvent] at appended
  split at appended
  · rw [appendPumpfun] at appended
    split at appended <;> cases appended
    rfl
  · rw [appendRaydium] at appended
    split at appended <;> cases appended
    rfl
  · cases appended
    rfl

/-- The time of the last flush is a reading of the clock. -/
theorem lastFlush_valid {writer next : DbWriter} {call : WriterCall} (valid : call.Valid)
    (last : writer.lastFlush.Valid) (taken : callStep writer call = some next) :
    next.lastFlush.Valid := by
  cases call with
  | store event =>
      rw [lastFlush_appendEvent (toOption_eq_some.mp taken)]
      exact last
  | noteFlush tv =>
      cases taken
      exact valid
  | timer now =>
      cases taken
      exact last
  | flushPumpfun env =>
      obtain ⟨flushed, -, result⟩ := flushPumpfunBatch_ok env writer
      rw [callStep, result] at taken
      cases taken
      exact last
  | flushRaydium env =>
      obtain ⟨flushed, -, result⟩ := flushRaydiumBatch_ok env writer
      rw [callStep, result] at taken
      cases taken
      exact last

/-- In every run the latencies are bounded and the timer waits for its interval, in all calls, if
and only if the clock is steady in all calls. -/
theorem clockSound_iff (metrics : Metrics) {lastFlush : Timeval} (last : lastFlush.Valid)
    {calls : List WriterCall} (valid : ∀ call ∈ calls, call.Valid) :
    Execution.Meets callStep ClockSound (dbWriterStart lastFlush metrics) calls ↔
      Execution.Meets callStep ClockSteady (dbWriterStart lastFlush metrics) calls := by
  have preserved : ∀ writer call next, WriterCall.Valid call → writer.lastFlush.Valid →
      callStep writer call = some next → next.lastFlush.Valid :=
    fun writer call next => lastFlush_valid
  have agree : ∀ writer call next, WriterCall.Valid call → writer.lastFlush.Valid →
      callStep writer call = some next → (ClockSound writer call ↔ ClockSteady writer call) :=
    fun writer call next valid last _ => clockSound_iff_clockSteady last valid
  exact Execution.meets_congr preserved agree valid last

/-- The readings of the first minute behind the epoch. -/
theorem Timeval.valid_of_early {sec usec : ℤ} (sec_nonneg : 0 ≤ sec) (early : sec < 60)
    (usec_nonneg : 0 ≤ usec) (usec_lt : usec < 1000000) : Timeval.Valid ⟨sec, usec⟩ := by
  refine ⟨sec_nonneg, usec_nonneg, usec_lt, ?_⟩
  change sec * 1000000 + usec < 2 ^ 63
  omega

/-- A flush with two readings. -/
def timedFlush (start finish : Timeval) : FlushEnv :=
  { refusedFlush with connectOk := true, statusOk := true, startTime := start, endTime := finish }

/-- An iteration that pops a trade and stores it a second after the last flush. -/
def timedIteration (finish : Timeval) : Iteration :=
  { refusedIteration with
    now := ⟨11, 0⟩
    timerFlush := ⟨timedFlush ⟨11, 0⟩ finish, timedFlush finish finish, finish⟩ }

/-- The calls of an iteration that starts ten seconds behind the epoch. -/
def timedCalls (finish : Timeval) : List WriterCall :=
  (timedIteration finish).calls (dbWriterStart ⟨10, 0⟩ Metrics.init)

theorem timedCalls_eq (finish : Timeval) :
    ∃ event, timedCalls finish =
      [.store event, .timer ⟨11, 0⟩, .flushPumpfun (timedFlush ⟨11, 0⟩ finish),
        .flushRaydium (timedFlush finish finish), .noteFlush finish] :=
  ⟨_, rfl⟩

theorem timedCalls_valid {finish : Timeval} (valid : finish.Valid) :
    ∀ call ∈ timedCalls finish, call.Valid := by
  have now : Timeval.Valid ⟨11, 0⟩ := by
    apply Timeval.valid_of_early <;> norm_num
  obtain ⟨event, calls⟩ := timedCalls_eq finish
  rw [calls]
  simp only [List.forall_mem_cons, List.not_mem_nil, false_implies, implies_true, and_true]
  exact ⟨trivial, now, ⟨now, valid⟩, ⟨valid, valid⟩, valid⟩

/-- An insert that takes five milliseconds. -/
theorem clockSound_iff_steady :
    Execution.Meets callStep ClockSound (dbWriterStart ⟨10, 0⟩ Metrics.init)
      (timedCalls ⟨11, 5000⟩) := by
  have last : Timeval.Valid ⟨10, 0⟩ := by
    apply Timeval.valid_of_early <;> norm_num
  have finish : Timeval.Valid ⟨11, 5000⟩ := by
    apply Timeval.valid_of_early <;> norm_num
  have during : (timedFlush ⟨11, 0⟩ ⟨11, 5000⟩).Steady := show (_ : ℤ) ≤ _ by decide
  have after : (timedFlush ⟨11, 5000⟩ ⟨11, 5000⟩).Steady := le_rfl
  refine (clockSound_iff Metrics.init last (timedCalls_valid finish)).mpr ?_
  obtain ⟨event, calls⟩ := timedCalls_eq ⟨11, 5000⟩
  rw [calls]
  intro stored taken
  have same := lastFlush_appendEvent (toOption_eq_some.mp taken)
  have later : stored.lastFlush.tvSec < 11 := by
    rw [same]
    exact show (10 : ℤ) < 11 by decide
  exact ⟨trivial, fun _ _ => ⟨.inl later, fun _ _ => ⟨fun _ => during, fun _ _ =>
    ⟨fun _ => after, fun _ _ => ⟨trivial, trivial⟩⟩⟩⟩⟩

/-- The clock goes back by a second during an insert. -/
theorem not_clockSound_back :
    ¬ Execution.Meets callStep ClockSound (dbWriterStart ⟨10, 0⟩ Metrics.init)
      (timedCalls ⟨10, 0⟩) := by
  intro sound
  have reached : ∃ event middle,
      timedCalls ⟨10, 0⟩ = [.store event, .timer ⟨11, 0⟩] ++
        .flushPumpfun (timedFlush ⟨11, 0⟩ ⟨10, 0⟩) ::
          [.flushRaydium (timedFlush ⟨10, 0⟩ ⟨10, 0⟩), .noteFlush ⟨10, 0⟩] ∧
      Execution.run callStep (dbWriterStart ⟨10, 0⟩ Metrics.init)
        [.store event, .timer ⟨11, 0⟩] = some middle ∧
      middle.lastFlush = ⟨10, 0⟩ ∧ middle.pumpfunBatch ≠ [] ∧ middle.conn = false :=
    ⟨_, _, rfl, rfl, rfl, List.cons_ne_nil _ _, rfl⟩
  obtain ⟨event, middle, calls, execution, lastFlush, filled, unconnected⟩ := reached
  obtain ⟨flushed, -, result⟩ := flushPumpfunBatch_ok (timedFlush ⟨11, 0⟩ ⟨10, 0⟩) middle
  have taken : callStep middle (.flushPumpfun (timedFlush ⟨11, 0⟩ ⟨10, 0⟩)) =
      some (middle.settlePumpfun flushed) := toOption_eq_some.mpr result
  rw [calls] at sound
  have here := sound.at execution taken
  have start : Timeval.Valid ⟨11, 0⟩ := by
    apply Timeval.valid_of_early <;> norm_num
  have finish : Timeval.Valid ⟨10, 0⟩ := by
    apply Timeval.valid_of_early <;> norm_num
  have valid : (WriterCall.flushPumpfun (timedFlush ⟨11, 0⟩ ⟨10, 0⟩)).Valid := ⟨start, finish⟩
  rw [clockSound_iff_clockSteady (lastFlush ▸ finish) valid] at here
  have steady := here ⟨filled, by rw [unconnected]; rfl, rfl⟩
  exact absurd steady (show ¬ (_ : ℤ) ≤ _ by decide)

end YureiGeyser
