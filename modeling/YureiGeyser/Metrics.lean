import Mathlib.Data.UInt

/-!
# Metrics

The counters of `metrics.h` that the queue and the writer touch.  They are 64-bit words and wrap.
-/

namespace YureiGeyser

/-- `yurei_metrics_t`. -/
structure Metrics where
  eventsTotal : UInt64
  eventsPumpfun : UInt64
  eventsRaydium : UInt64
  queuePushes : UInt64
  queuePops : UInt64
  queueHighWater : UInt64
  dbInsertsSuccess : UInt64
  dbInsertsFailed : UInt64
  dbBatches : UInt64
  dbReconnects : UInt64
  totalDbLatencyUs : UInt64
  deriving DecidableEq

namespace Metrics

/-- `metrics_init`. -/
def init : Metrics :=
  ⟨0, 0, 0, 0, 0, 0, 0, 0, 0, 0, 0⟩

/-- `metrics_inc_events_total`. -/
def incEventsTotal (metrics : Metrics) : Metrics :=
  { metrics with eventsTotal := metrics.eventsTotal + 1 }

/-- `metrics_inc_pumpfun`. -/
def incPumpfun (metrics : Metrics) : Metrics :=
  { metrics with eventsPumpfun := metrics.eventsPumpfun + 1 }

/-- `metrics_inc_raydium`. -/
def incRaydium (metrics : Metrics) : Metrics :=
  { metrics with eventsRaydium := metrics.eventsRaydium + 1 }

/-- `metrics_inc_queue_push`. -/
def incQueuePush (metrics : Metrics) : Metrics :=
  { metrics with queuePushes := metrics.queuePushes + 1 }

/-- `metrics_inc_queue_pop`. -/
def incQueuePop (metrics : Metrics) : Metrics :=
  { metrics with queuePops := metrics.queuePops + 1 }

/-- `metrics_update_queue_high_water` when nobody else writes the counter meanwhile. -/
def updateQueueHighWater (size : UInt64) (metrics : Metrics) : Metrics :=
  if size > metrics.queueHighWater then { metrics with queueHighWater := size } else metrics

@[simp] theorem updateQueueHighWater_queuePushes (size : UInt64) (metrics : Metrics) :
    (metrics.updateQueueHighWater size).queuePushes = metrics.queuePushes := by
  rw [updateQueueHighWater]
  split <;> rfl

@[simp] theorem updateQueueHighWater_queuePops (size : UInt64) (metrics : Metrics) :
    (metrics.updateQueueHighWater size).queuePops = metrics.queuePops := by
  rw [updateQueueHighWater]
  split <;> rfl

theorem updateQueueHighWater_queueHighWater (size : UInt64) (metrics : Metrics) :
    (metrics.updateQueueHighWater size).queueHighWater =
      if size > metrics.queueHighWater then size else metrics.queueHighWater := by
  rw [updateQueueHighWater]
  split <;> rfl

/-- `metrics_inc_db_success`. -/
def incDbSuccess (metrics : Metrics) : Metrics :=
  { metrics with dbInsertsSuccess := metrics.dbInsertsSuccess + 1 }

/-- `metrics_inc_db_failed`. -/
def incDbFailed (metrics : Metrics) : Metrics :=
  { metrics with dbInsertsFailed := metrics.dbInsertsFailed + 1 }

/-- `metrics_inc_db_batch`. -/
def incDbBatch (metrics : Metrics) : Metrics :=
  { metrics with dbBatches := metrics.dbBatches + 1 }

/-- `metrics_inc_db_reconnect`. -/
def incDbReconnect (metrics : Metrics) : Metrics :=
  { metrics with dbReconnects := metrics.dbReconnects + 1 }

/-- `metrics_add_db_latency`. -/
def addDbLatency (us : UInt64) (metrics : Metrics) : Metrics :=
  { metrics with totalDbLatencyUs := metrics.totalDbLatencyUs + us }

end Metrics

end YureiGeyser
