import Mathlib.Data.List.ReduceOption

/-!
# Tables of slots

A table of a fixed number of slots holds items in no particular order.  An item is stored in the
first free slot, and the first item with a property is taken out of its slot.  What a table holds
is the list of its items up to permutation.
-/

namespace Slots

variable {α : Type*}

/-- Take the first item with a property. -/
def take (wanted : α → Bool) : List (Option α) → Option (α × List (Option α))
  | [] => none
  | none :: slots => (take wanted slots).map fun (item, rest) => (item, none :: rest)
  | some item :: slots =>
      if wanted item then some (item, none :: slots)
      else (take wanted slots).map fun (found, rest) => (found, some item :: rest)

/-- Store an item in the first free slot; without one it is dropped. -/
def store (item : α) : List (Option α) → List (Option α)
  | [] => []
  | none :: slots => some item :: slots
  | some other :: slots => some other :: store item slots

@[simp] theorem store_length (item : α) (slots : List (Option α)) :
    (store item slots).length = slots.length := by
  induction slots with
  | nil => rfl
  | cons slot slots induction =>
      cases slot with
      | none => rfl
      | some other => rw [store, List.length_cons, List.length_cons, induction]

theorem take_eq_some {wanted : α → Bool} {slots rest : List (Option α)} {item : α}
    (taken : take wanted slots = some (item, rest)) :
    wanted item = true ∧ rest.length = slots.length ∧
      slots.reduceOption.Perm (item :: rest.reduceOption) := by
  induction slots generalizing rest with
  | nil => cases taken
  | cons slot slots induction =>
      cases slot with
      | none =>
          rw [take] at taken
          obtain ⟨⟨found, later⟩, below, same⟩ := Option.map_eq_some_iff.mp taken
          cases same
          obtain ⟨satisfies, length, items⟩ := induction below
          refine ⟨satisfies, by rw [List.length_cons, List.length_cons, length], ?_⟩
          rwa [List.reduceOption_cons_of_none, List.reduceOption_cons_of_none]
      | some other =>
          rw [take] at taken
          split at taken
          · next satisfies =>
              cases taken
              refine ⟨satisfies, rfl, ?_⟩
              rw [List.reduceOption_cons_of_some, List.reduceOption_cons_of_none]
          · obtain ⟨⟨found, later⟩, below, same⟩ := Option.map_eq_some_iff.mp taken
            cases same
            obtain ⟨satisfies, length, items⟩ := induction below
            refine ⟨satisfies, by rw [List.length_cons, List.length_cons, length], ?_⟩
            rw [List.reduceOption_cons_of_some, List.reduceOption_cons_of_some]
            exact (items.cons other).trans (List.Perm.swap item other _)

/-- What is not taken is not there. -/
theorem take_eq_none {wanted : α → Bool} {slots : List (Option α)}
    (nothing : take wanted slots = none) : ∀ item ∈ slots.reduceOption, wanted item = false := by
  induction slots with
  | nil =>
      intro item member
      cases member
  | cons slot slots induction =>
      cases slot with
      | none =>
          rw [take, Option.map_eq_none_iff] at nothing
          rw [List.reduceOption_cons_of_none]
          exact induction nothing
      | some other =>
          rw [take] at nothing
          split at nothing
          · cases nothing
          · next unwanted =>
              rw [Option.map_eq_none_iff] at nothing
              rw [List.reduceOption_cons_of_some]
              intro item member
              rcases List.mem_cons.mp member with rfl | later
              · exact Bool.eq_false_iff.mpr unwanted
              · exact induction nothing item later

/-- With a free slot the item is added to what is there. -/
theorem store_perm {slots : List (Option α)} (free : none ∈ slots) (item : α) :
    (store item slots).reduceOption.Perm (item :: slots.reduceOption) := by
  induction slots with
  | nil => cases free
  | cons slot slots induction =>
      cases slot with
      | none => rw [store, List.reduceOption_cons_of_some, List.reduceOption_cons_of_none]
      | some other =>
          have later : none ∈ slots := by simpa using free
          rw [store, List.reduceOption_cons_of_some, List.reduceOption_cons_of_some]
          exact ((induction later).cons other).trans (List.Perm.swap item other _)

theorem mem_store {item stored : α} {slots : List (Option α)}
    (member : stored ∈ (store item slots).reduceOption) :
    stored = item ∨ stored ∈ slots.reduceOption := by
  induction slots with
  | nil => cases member
  | cons slot slots induction =>
      cases slot with
      | none =>
          rw [store, List.reduceOption_cons_of_some] at member
          rw [List.reduceOption_cons_of_none]
          exact List.mem_cons.mp member
      | some other =>
          rw [store, List.reduceOption_cons_of_some] at member
          rw [List.reduceOption_cons_of_some]
          cases member with
          | head => exact .inr List.mem_cons_self
          | tail _ member => exact (induction member).imp_right (List.mem_cons_of_mem other)

end Slots
