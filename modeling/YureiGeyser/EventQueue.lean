import YureiGeyser.Event
import YureiGeyser.Metrics
import YureiGeyser.Library.Channel
import YureiGeyser.Library.Execution

/-!
# The event queue

The functions of `event_queue.c` are given by what a thread does between acquiring the lock and
giving it up, either by returning or by waiting on a condition variable; without a result the thread
waits.  A thread that wakes up runs the same code again, for the loops only re-test their condition.
-/

namespace YureiGeyser

/-- `struct yurei_event_queue`, without the lock and the condition variables. -/
structure Queue where
  buffer : List Event
  capacity : ℕ
  head : ℕ
  tail : ℕ
  size : ℕ
  closed : Bool

/-- `event_queue_create`. -/
def eventQueueCreate (capacity : ℕ) : Queue where
  buffer := List.replicate capacity Event.zero
  capacity := capacity
  head := 0
  tail := 0
  size := 0
  closed := false

/-- `event_queue_push`. -/
def eventQueuePush (event : Event) (queue : Queue) (metrics : Metrics) :
    Option (Bool × Queue × Metrics) :=
  if !queue.closed && queue.size == queue.capacity then none
  else if queue.closed then some (false, queue, metrics)
  else
    let queue :=
      { queue with
        buffer := queue.buffer.set queue.tail event
        tail := (queue.tail + 1) % queue.capacity
        size := queue.size + 1 }
    some (true, queue, metrics.incQueuePush.updateQueueHighWater (UInt64.ofNat queue.size))

/-- `event_queue_pop`. -/
def eventQueuePop (block : Bool) (queue : Queue) (metrics : Metrics) :
    Option (Option Event × Queue × Metrics) :=
  if !queue.closed && queue.size == 0 then
    if !block then some (none, queue, metrics) else none
  else if queue.size = 0 then some (none, queue, metrics)
  else
    let event := queue.buffer.getD queue.head Event.zero
    let queue :=
      { queue with
        head := (queue.head + 1) % queue.capacity
        size := queue.size - 1 }
    some (some event, queue, metrics.incQueuePop)

theorem eventQueuePop_size {block : Bool} {queue queue' : Queue} {metrics metrics' : Metrics}
    {result : Option Event}
    (popped : eventQueuePop block queue metrics = some (result, queue', metrics')) :
    queue'.size = queue.size - 1 := by
  rw [eventQueuePop] at popped
  split at popped
  · next empty =>
      have zero : queue.size = 0 := by
        rw [Bool.and_eq_true, beq_iff_eq] at empty
        exact empty.2
      split at popped
      · cases popped
        rw [zero]
      · cases popped
  · split at popped
    · next zero =>
        cases popped
        rw [zero]
    · cases popped
      rfl

/-- `event_queue_close`. -/
def eventQueueClose (queue : Queue) : Queue :=
  { queue with closed := true }

namespace Queue

/-- The events in the ring, read from the head. -/
def contents (queue : Queue) : List Event :=
  Ring.window queue.buffer queue.head queue.size

/-- The ring stores the items of a channel. -/
structure Represents {capacity : ℕ} (queue : Queue) (channel : Channel Event capacity) : Prop where
  capacity_eq : queue.capacity = capacity
  buffer_length : queue.buffer.length = capacity
  head_lt : queue.head < capacity
  tail_eq : queue.tail = (queue.head + queue.size) % capacity
  size_le : queue.size ≤ capacity
  contents_eq : queue.contents = channel.items
  closed_eq : queue.closed = channel.closed

variable {capacity : ℕ} {queue : Queue} {channel : Channel Event capacity}

theorem Represents.size_eq (represents : queue.Represents channel) :
    queue.size = channel.items.length := by
  have fits : queue.size ≤ queue.buffer.length := by
    rw [represents.buffer_length]
    exact represents.size_le
  rw [← represents.contents_eq, contents, Ring.window_length fits]

theorem Represents.tail_lt (represents : queue.Represents channel) : queue.tail < capacity := by
  rw [represents.tail_eq]
  exact Nat.mod_lt _ (Nat.zero_lt_of_lt represents.head_lt)

theorem eventQueueCreate_represents (positive : 0 < capacity) :
    (eventQueueCreate capacity).Represents (Channel.empty : Channel Event capacity) where
  capacity_eq := rfl
  buffer_length := List.length_replicate
  head_lt := positive
  tail_eq := (Nat.zero_mod capacity).symm
  size_le := Nat.zero_le capacity
  contents_eq := rfl
  closed_eq := rfl

theorem eventQueueClose_represents (represents : queue.Represents channel) :
    (eventQueueClose queue).Represents channel.close where
  capacity_eq := represents.capacity_eq
  buffer_length := represents.buffer_length
  head_lt := represents.head_lt
  tail_eq := represents.tail_eq
  size_le := represents.size_le
  contents_eq := represents.contents_eq
  closed_eq := rfl

/-- The answers of two implementations agree and so do the states that they leave. -/
def Agree {result : Type} (concrete : result × Queue × Metrics)
    (abstract : result × Channel Event capacity) : Prop :=
  concrete.1 = abstract.1 ∧ concrete.2.1.Represents abstract.2

section Agreement

variable {result : Type} {concrete : Option (result × Queue × Metrics)}
  {abstract : Option (result × Channel Event capacity)}

theorem exists_abstract (agreement : Option.Rel Agree concrete abstract) {answer : result}
    {queue' : Queue} {metrics' : Metrics} (ran : concrete = some (answer, queue', metrics')) :
    ∃ after, abstract = some (answer, after) ∧ queue'.Represents after := by
  cases agreement with
  | none => cases ran
  | some agree =>
      cases ran
      obtain ⟨same, represents⟩ := agree
      change answer = _ at same
      subst same
      exact ⟨_, rfl, represents⟩

theorem exists_concrete (agreement : Option.Rel Agree concrete abstract) {answer : result}
    {after : Channel Event capacity} (ran : abstract = some (answer, after)) :
    ∃ queue' metrics', concrete = some (answer, queue', metrics') ∧ queue'.Represents after := by
  cases agreement with
  | none => cases ran
  | some agree =>
      cases ran
      obtain ⟨same, represents⟩ := agree
      change _ = answer at same
      subst same
      exact ⟨_, _, rfl, represents⟩

end Agreement

/-- A push on the ring is a push on the channel. -/
theorem eventQueuePush_refines (represents : queue.Represents channel) (event : Event)
    (metrics : Metrics) :
    Option.Rel Agree (eventQueuePush event queue metrics) (channel.push event) := by
  have size_eq := represents.size_eq
  rw [eventQueuePush, represents.closed_eq]
  cases closed : channel.closed with
  | true =>
      rw [Channel.push_of_closed closed]
      exact Option.Rel.some ⟨rfl, represents⟩
  | false =>
      rcases channel.bounded.lt_or_eq with room | full
      · obtain ⟨next, pushed, items, opened⟩ := Channel.push_of_room closed room event
        have roomy : queue.size < queue.buffer.length := by
          rw [represents.buffer_length, size_eq]
          exact room
        have notFull : (queue.size == queue.capacity) = false := by
          rw [beq_eq_false_iff_ne, represents.capacity_eq, size_eq]
          exact room.ne
        have window : Ring.window (queue.buffer.set queue.tail event) queue.head (queue.size + 1) =
            next.items := by
          rw [items, ← represents.contents_eq, contents, ← Ring.window_set roomy,
            represents.tail_eq, represents.buffer_length]
        rw [pushed, notFull]
        exact Option.Rel.some ⟨rfl,
          { capacity_eq := represents.capacity_eq
            buffer_length := List.length_set.trans represents.buffer_length
            head_lt := represents.head_lt
            tail_eq := by
              change (queue.tail + 1) % queue.capacity = (queue.head + (queue.size + 1)) % capacity
              rw [represents.tail_eq, represents.capacity_eq, Nat.mod_add_mod, Nat.add_assoc]
            size_le := by
              change queue.size + 1 ≤ capacity
              omega
            contents_eq := window
            closed_eq := opened.symm }⟩
      · have isFull : (queue.size == queue.capacity) = true := by
          rw [beq_iff_eq, represents.capacity_eq, size_eq]
          exact full
        rw [Channel.push_of_full closed full, isFull]
        exact Option.Rel.none

/-- A pop from the ring is a pop from the channel. -/
theorem eventQueuePop_refines (represents : queue.Represents channel) (block : Bool)
    (metrics : Metrics) :
    Option.Rel Agree (eventQueuePop block queue metrics) (channel.pop block) := by
  have size_eq := represents.size_eq
  rw [eventQueuePop]
  cases items : channel.items with
  | cons event events =>
      obtain ⟨next, popped, rest, closed⟩ := Channel.pop_of_cons items block
      rw [items, List.length_cons] at size_eq
      have notEmpty : queue.size ≠ 0 := by omega
      have inside : queue.head < queue.buffer.length := by
        rw [represents.buffer_length]
        exact represents.head_lt
      have fits : events.length + 1 ≤ queue.buffer.length := by
        rw [represents.buffer_length, ← size_eq]
        exact represents.size_le
      have window := represents.contents_eq
      rw [contents, size_eq, Ring.window_eq_cons inside fits, items, List.cons.injEq] at window
      have first : queue.buffer.getD queue.head Event.zero = event := by
        rw [List.getD_eq_getElem?_getD, List.getElem?_eq_getElem inside, Option.getD_some, window.1]
      rw [popped, beq_false_of_ne notEmpty, Bool.and_false, if_neg Bool.false_ne_true,
        if_neg notEmpty, first]
      exact Option.Rel.some ⟨rfl,
        { capacity_eq := represents.capacity_eq
          buffer_length := represents.buffer_length
          head_lt := by
            change (queue.head + 1) % queue.capacity < capacity
            rw [represents.capacity_eq]
            exact Nat.mod_lt _ (Nat.zero_lt_of_lt represents.head_lt)
          tail_eq := by
            change queue.tail = ((queue.head + 1) % queue.capacity + (queue.size - 1)) % capacity
            rw [represents.tail_eq, represents.capacity_eq, Nat.mod_add_mod, size_eq]
            congr 1
            omega
          size_le := (Nat.sub_le queue.size 1).trans represents.size_le
          contents_eq := by
            change Ring.window queue.buffer ((queue.head + 1) % queue.capacity) (queue.size - 1) =
              next.items
            rw [rest, ← window.2, represents.capacity_eq, represents.buffer_length, size_eq,
              Nat.add_sub_cancel]
          closed_eq := represents.closed_eq.trans closed.symm }⟩
  | nil =>
      rw [items, List.length_nil] at size_eq
      rw [Channel.pop_of_nil items, size_eq, represents.closed_eq, beq_self_eq_true, Bool.and_true,
        if_pos rfl]
      cases channel.closed with
      | true =>
          rw [Bool.not_true, Bool.and_false, if_neg Bool.false_ne_true]
          exact Option.Rel.some ⟨rfl, represents⟩
      | false =>
          cases block with
          | true => exact Option.Rel.none
          | false => exact Option.Rel.some ⟨rfl, represents⟩

end Queue

end YureiGeyser
