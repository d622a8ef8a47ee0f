import Mathlib.Order.Bounds.Basic

/-!
# Peaks

A cell is raised to the values that it is offered and never lowered.  An offer is settled once the
cell is known to hold at least its value.  When every offer is settled the cell holds the largest
of its initial value and the offers, in whatever order they were made and settled.
-/

variable {α : Type*} [LE α]

/-- A cell that started with `initial` and was raised to some of the offers. -/
structure Peak (initial : α) (offers settled : Set α) (value : α) : Prop where
  /-- The cell holds its initial value or an offer. -/
  attained : value = initial ∨ value ∈ offers
  /-- The cell was never lowered. -/
  initial_le : initial ≤ value
  /-- The settled offers are not above it. -/
  settled_le : ∀ offer ∈ settled, offer ≤ value

namespace Peak

variable {initial value : α} {offers settled settled' : Set α}

theorem start [Std.IsPreorder α] (initial : α) (offers : Set α) : Peak initial offers ∅ initial where
  attained := .inl rfl
  initial_le := Std.le_refl initial
  settled_le _ member := member.elim

theorem offer (peak : Peak initial offers settled value) (more : α) :
    Peak initial (insert more offers) settled value where
  attained := peak.attained.imp_right (Set.mem_insert_of_mem more)
  initial_le := peak.initial_le
  settled_le := peak.settled_le

/-- The cell is raised to an offer, which is settled by that. -/
theorem raise [Std.IsPreorder α] (peak : Peak initial offers settled value)
    {offer : α} (offered : offer ∈ offers) (above : value ≤ offer) (later : settled' ⊆ insert offer settled) :
    Peak initial offers settled' offer where
  attained := .inr offered
  initial_le := Std.le_trans peak.initial_le above
  settled_le other member := by
    rcases later member with rfl | earlier
    · exact Std.le_refl other
    · exact Std.le_trans (peak.settled_le other earlier) above

/-- An offer that is not above the cell is settled. -/
theorem settle (peak : Peak initial offers settled value) {offer : α}
    (below : offer ≤ value) (later : settled' ⊆ insert offer settled) : Peak initial offers settled' value where
  attained := peak.attained
  initial_le := peak.initial_le
  settled_le other member := by
    rcases later member with rfl | earlier
    · exact below
    · exact peak.settled_le other earlier

theorem mono (peak : Peak initial offers settled value) (fewer : settled' ⊆ settled) :
    Peak initial offers settled' value where
  attained := peak.attained
  initial_le := peak.initial_le
  settled_le other member := peak.settled_le other (fewer member)

/-- When every offer is settled the cell holds the largest value. -/
theorem isGreatest (peak : Peak initial offers settled value) (all : offers ⊆ settled) :
    IsGreatest (insert initial offers) value where
  left := peak.attained
  right other member := by
    rcases member with rfl | member
    · exact peak.initial_le
    · exact peak.settled_le other (all member)

end Peak
