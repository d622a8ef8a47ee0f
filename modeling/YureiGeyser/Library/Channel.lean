import Mathlib.Data.List.Rotate
import Mathlib.Data.Nat.ModEq

/-!
# Bounded channels and ring buffers

A bounded channel is a list of items with a closing flag; a sender waits while the list is full, a
receiver while it is empty.  A ring buffer stores such a list in a window of a fixed array, which
starts at `head` and wraps around.
-/

namespace Ring

variable {α : Type*}

/-- The items of a window of an array that wraps around. -/
def window (buffer : List α) (head size : ℕ) : List α :=
  (buffer.rotate head).take size

theorem window_length {buffer : List α} {head size : ℕ} (fits : size ≤ buffer.length) :
    (window buffer head size).length = size := by
  rw [window, List.length_take, List.length_rotate, min_eq_left fits]

private theorem slot_ne {capacity head index size : ℕ} (index_lt : index < size)
    (size_lt : size < capacity) : (index + head) % capacity ≠ (head + size) % capacity := by
  intro same
  have congruent : index + head ≡ size + head [MOD capacity] := by
    rw [Nat.ModEq, same, Nat.add_comm head size]
  have equal : index = size :=
    (Nat.ModEq.add_right_cancel' head congruent).eq_of_lt_of_lt (index_lt.trans size_lt) size_lt
  omega

/-- A store behind the window extends it. -/
theorem window_set {buffer : List α} {head size : ℕ} (room : size < buffer.length) (item : α) :
    window (buffer.set ((head + size) % buffer.length) item) head (size + 1) =
      window buffer head size ++ [item] := by
  apply List.ext_getElem
  · rw [window_length (by rw [List.length_set]; omega), List.length_append,
      window_length room.le, List.length_singleton]
  · intro index inside _
    rw [window_length (by rw [List.length_set]; omega)] at inside
    simp only [window, List.getElem_take, List.getElem_rotate, List.length_set]
    by_cases old : index < size
    · rw [List.getElem_set_ne (slot_ne old room).symm,
        List.getElem_append_left (by rw [← window, window_length room.le]; exact old)]
      simp only [List.getElem_take, List.getElem_rotate]
    · have last : index = size := by omega
      subst last
      simp only [Nat.add_comm head index, List.getElem_set_self]
      rw [List.getElem_append_right (by rw [← window, window_length room.le])]
      simp only [List.getElem_singleton]

/-- Without its first item a window starts one place later. -/
theorem window_eq_cons {buffer : List α} {head size : ℕ} (inside : head < buffer.length)
    (fits : size + 1 ≤ buffer.length) :
    window buffer head (size + 1) =
      buffer[head] :: window buffer ((head + 1) % buffer.length) size := by
  apply List.ext_getElem
  · rw [window_length fits, List.length_cons, window_length (by omega)]
  · intro index index_lt _
    rw [window_length fits] at index_lt
    simp only [window, List.getElem_take, List.getElem_rotate]
    cases index with
    | zero => simp only [Nat.zero_add, Nat.mod_eq_of_lt inside, List.getElem_cons_zero]
    | succ index =>
        simp only [List.getElem_cons_succ, List.getElem_take, List.getElem_rotate, Nat.add_mod_mod]
        congr 2
        omega

end Ring

/-- A channel that holds at most `capacity` items. -/
structure Channel (α : Type*) (capacity : ℕ) where
  /-- The items, the oldest first. -/
  items : List α
  /-- No item is accepted any more. -/
  closed : Bool
  /-- The capacity is respected. -/
  bounded : items.length ≤ capacity

namespace Channel

variable {α : Type*} {capacity : ℕ}

/-- The open channel without items. -/
def empty : Channel α capacity where
  items := []
  closed := false
  bounded := Nat.zero_le capacity

/-- A sender: no result while it has to wait, else whether the item is accepted. -/
def push (item : α) (channel : Channel α capacity) : Option (Bool × Channel α capacity) :=
  if channel.closed then some (false, channel)
  else if room : channel.items.length < capacity then
    some (true,
      { items := channel.items ++ [item]
        closed := channel.closed
        bounded := by rw [List.length_append, List.length_singleton]; omega })
  else none

/-- A receiver: no result while it has to wait, else the item, if there is one. -/
def pop (block : Bool) (channel : Channel α capacity) : Option (Option α × Channel α capacity) :=
  match cases : channel.items with
  | item :: items =>
      some (some item,
        { items := items
          closed := channel.closed
          bounded := by
            have bounded := channel.bounded
            rw [cases, List.length_cons] at bounded
            omega })
  | [] => if block && !channel.closed then none else some (none, channel)

/-- No item is accepted from now on. -/
def close (channel : Channel α capacity) : Channel α capacity where
  items := channel.items
  closed := true
  bounded := channel.bounded

variable {channel : Channel α capacity}

theorem push_of_closed (closed : channel.closed = true) (item : α) :
    channel.push item = some (false, channel) := by
  rw [push, if_pos closed]

theorem push_of_full (opened : channel.closed = false) (full : channel.items.length = capacity)
    (item : α) : channel.push item = none := by
  rw [push, if_neg (by rw [opened]; exact Bool.false_ne_true), dif_neg (by omega)]

theorem push_of_room (opened : channel.closed = false) (room : channel.items.length < capacity)
    (item : α) :
    ∃ next, channel.push item = some (true, next) ∧ next.items = channel.items ++ [item] ∧
      next.closed = false := by
  rw [push, if_neg (by rw [opened]; exact Bool.false_ne_true), dif_pos room]
  exact ⟨_, rfl, rfl, opened⟩

theorem pop_of_cons {item : α} {items : List α} (cons : channel.items = item :: items)
    (block : Bool) :
    ∃ next, channel.pop block = some (some item, next) ∧ next.items = items ∧
      next.closed = channel.closed := by
  rw [pop]
  split
  · next first rest split =>
      rw [cons, List.cons.injEq] at split
      obtain ⟨rfl, rfl⟩ := split
      exact ⟨_, rfl, rfl, rfl⟩
  · next empty =>
      rw [cons] at empty
      cases empty

theorem pop_of_nil (empty : channel.items = []) (block : Bool) :
    channel.pop block = if block && !channel.closed then none else some (none, channel) := by
  rw [pop]
  split
  · next first rest split =>
      rw [empty] at split
      cases split
  · rfl

/-- What a push that returns has done. -/
theorem push_eq_some {item : α} {accepted : Bool} {next : Channel α capacity}
    (returned : channel.push item = some (accepted, next)) :
    (accepted = true ∧ channel.closed = false ∧ next.items = channel.items ++ [item] ∧
        next.closed = false) ∨
      (accepted = false ∧ channel.closed = true ∧ next = channel) := by
  cases closed : channel.closed with
  | true =>
      rw [push_of_closed closed] at returned
      cases returned
      exact Or.inr ⟨rfl, rfl, rfl⟩
  | false =>
      rcases channel.bounded.lt_or_eq with room | full
      · obtain ⟨after, pushed, items, opened⟩ := push_of_room closed room item
        rw [pushed] at returned
        cases returned
        exact Or.inl ⟨rfl, rfl, items, opened⟩
      · rw [push_of_full closed full] at returned
        cases returned

/-- What a pop that returns has done. -/
theorem pop_eq_some {block : Bool} {result : Option α} {next : Channel α capacity}
    (returned : channel.pop block = some (result, next)) :
    (∃ item, result = some item ∧ channel.items = item :: next.items ∧
        next.closed = channel.closed) ∨
      (result = none ∧ channel.items = [] ∧ (block = true → channel.closed = true) ∧
        next = channel) := by
  cases items : channel.items with
  | cons item items =>
      obtain ⟨after, popped, rest, closed⟩ := pop_of_cons items block
      rw [popped] at returned
      cases returned
      exact Or.inl ⟨item, rfl, by rw [rest], closed⟩
  | nil =>
      rw [pop_of_nil items] at returned
      split at returned
      · cases returned
      · next ready =>
          cases returned
          refine Or.inr ⟨rfl, rfl, ?_, rfl⟩
          intro blocking
          simpa [blocking] using ready

end Channel
