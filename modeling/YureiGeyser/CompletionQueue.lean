import YureiGeyser.Library.Slots

/-!
# The completion queue of a subscription

`run_subscription` starts batches under three tags and waits for them one after the other.  A
completion of a tag that is not awaited is parked in a table of four slots, where a later wait for
its own tag looks first.
-/

namespace YureiGeyser

/-- The tags 1, 2 and 3 of the batches. -/
inductive Tag
  | handshake
  | status
  | receive
  deriving DecidableEq

/-- A `grpc_event` of type `GRPC_OP_COMPLETE`. -/
structure Completion where
  tag : Tag
  success : Bool

/-- A `grpc_event`. -/
inductive QueueEvent
  | shutdown
  | timeout
  | opComplete (completion : Completion)

/-- `CQ_CACHE_MAX_EVENTS`. -/
def cqCacheMaxEvents : ℕ := 4

/-- `cq_event_cache_t`.  An entry that is not in use is `none`. -/
structure EventCache where
  /-- The slots of the table. -/
  entries : List (Option Completion)
  /-- Their number is fixed. -/
  size : entries.length = cqCacheMaxEvents

namespace EventCache

/-- The zeroed table. -/
def empty : EventCache where
  entries := List.replicate cqCacheMaxEvents none
  size := List.length_replicate

/-- The parked completions. -/
def parked (cache : EventCache) : List Completion :=
  cache.entries.reduceOption

@[simp] theorem parked_empty : empty.parked = [] := rfl

end EventCache

/-- `cq_cache_take`. -/
def cqCacheTake (cache : EventCache) (tag : Tag) : Option (Completion × EventCache) :=
  match taken : Slots.take (fun completion => completion.tag = tag) cache.entries with
  | none => none
  | some (completion, entries) =>
      some (completion, ⟨entries, (Slots.take_eq_some taken).2.1.trans cache.size⟩)

/-- `cq_cache_store`.  Without a free slot the completion is dropped. -/
def cqCacheStore (cache : EventCache) (completion : Completion) : EventCache where
  entries := Slots.store completion cache.entries
  size := (Slots.store_length completion cache.entries).trans cache.size

/-- What `cq_wait_for_tag` does after `grpc_completion_queue_next`. -/
inductive WaitOutcome
  /-- It asks for the next event. -/
  | again (cache : EventCache)
  /-- It returns true. -/
  | found (completion : Completion)
  /-- It returns false. -/
  | failed

/-- The body of the loop of `cq_wait_for_tag`. -/
def cqWaitForTag (tag : Tag) (cache : EventCache) : QueueEvent → WaitOutcome
  | .shutdown => .failed
  | .timeout => .again cache
  | .opComplete completion =>
      if completion.tag = tag then .found completion
      else .again (cqCacheStore cache completion)

theorem cqCacheTake_eq_some {cache rest : EventCache} {tag : Tag} {completion : Completion}
    (taken : cqCacheTake cache tag = some (completion, rest)) :
    completion.tag = tag ∧ cache.parked.Perm (completion :: rest.parked) := by
  rw [cqCacheTake] at taken
  split at taken
  · cases taken
  · next found =>
      cases taken
      obtain ⟨wanted, -, items⟩ := Slots.take_eq_some found
      exact ⟨of_decide_eq_true wanted, items⟩

theorem cqCacheTake_eq_none {cache : EventCache} {tag : Tag}
    (nothing : cqCacheTake cache tag = none) :
    ∀ completion ∈ cache.parked, completion.tag ≠ tag := by
  rw [cqCacheTake] at nothing
  split at nothing
  · next missing =>
      intro completion member
      exact of_decide_eq_false (Slots.take_eq_none missing completion member)
  · cases nothing

/-- With a free slot nothing is dropped. -/
theorem cqCacheStore_perm {cache : EventCache} (free : none ∈ cache.entries)
    (completion : Completion) :
    (cqCacheStore cache completion).parked.Perm (completion :: cache.parked) :=
  Slots.store_perm free completion

/-- A table with fewer parked completions than slots has a free one. -/
theorem EventCache.free_of_parked {cache : EventCache}
    (fewer : cache.parked.length < cqCacheMaxEvents) : none ∈ cache.entries := by
  rw [← cache.size] at fewer
  exact List.reduceOption_length_lt_iff.mp fewer

theorem mem_cqCacheStore {cache : EventCache} {completion stored : Completion}
    (member : stored ∈ (cqCacheStore cache completion).parked) :
    stored = completion ∨ stored ∈ cache.parked :=
  Slots.mem_store member

end YureiGeyser
