import Mathlib.Algebra.Order.BigOperators.Group.List
import Mathlib.Algebra.Order.Group.Nat
import Mathlib.Algebra.Order.Ring.Nat
import Mathlib.Data.List.Infix
import Mathlib.Logic.Function.Basic

/-!
# Snapshots of growing counters

A reader loads counters one after the other while they grow, so the values that it gets were never
there all at once.  A bound of a sum of counters by another one, which holds at every moment, holds
of these values all the same when the other one is loaded last.
-/

namespace Snapshot

variable {κ : Type*}

/-- A reader with the values that it has loaded; zero stands for those that it has not. -/
structure Reader (κ : Type*) where
  /-- What it has still to load, in order. -/
  todo : List κ
  seen : κ → ℕ

/-- A reader before its first load. -/
def Reader.start (order : List κ) : Reader κ where
  todo := order
  seen _ := 0

/-- The next counter is loaded. -/
def Reader.load [DecidableEq κ] (reader : Reader κ) (counts : κ → ℕ) : Option (Reader κ) :=
  match reader.todo with
  | [] => none
  | key :: rest => some ⟨rest, Function.update reader.seen key (counts key)⟩

/-- The sum of some counters is bounded by a function of another one. -/
structure Bound (κ : Type*) where
  early : List κ
  late : κ
  limit : ℕ → ℕ

namespace Bound

/-- Counters that meet the bound. -/
def Holds (bound : Bound κ) (counts : κ → ℕ) : Prop :=
  (bound.early.map counts).sum ≤ bound.limit (counts bound.late)

theorem holds_zero (bound : Bound κ) : bound.Holds fun _ => 0 := by
  have zero : (bound.early.map fun _ => 0).sum = 0 := by simp
  rw [Holds, zero]
  exact Nat.zero_le _

/-- Once the late counter is loaded no early one is. -/
def Ordered (bound : Bound κ) (order : List κ) : Prop :=
  bound.late ∉ bound.early ∧
    ∀ todo ∈ order.tails, bound.late ∉ todo → ∀ key ∈ bound.early, key ∉ todo

instance [DecidableEq κ] (bound : Bound κ) (order : List κ) : Decidable (bound.Ordered order) :=
  inferInstanceAs (Decidable (_ ∧ _))

/-- What is invariant about a reader. -/
structure Kept (bound : Bound κ) (order : List κ) (counts : κ → ℕ) (reader : Reader κ) : Prop where
  rest : reader.todo ∈ order.tails
  seen_le : ∀ key, reader.seen key ≤ counts key
  holds : bound.late ∉ reader.todo → bound.Holds reader.seen

variable {bound : Bound κ} {order : List κ} {counts later : κ → ℕ} {reader next : Reader κ}

theorem kept_start (bound : Bound κ) (order : List κ) (counts : κ → ℕ) :
    bound.Kept order counts (.start order) where
  rest := (List.mem_tails _ _).mpr (List.suffix_refl order)
  seen_le _ := Nat.zero_le _
  holds _ := bound.holds_zero

theorem Kept.grow (kept : bound.Kept order counts reader) (grown : ∀ key, counts key ≤ later key) :
    bound.Kept order later reader where
  rest := kept.rest
  seen_le key := (kept.seen_le key).trans (grown key)
  holds := kept.holds

/-- A load keeps the bound when it holds of the counters at that moment. -/
theorem Kept.load [DecidableEq κ] (kept : bound.Kept order counts reader)
    (ordered : bound.Ordered order) (holds : bound.Holds counts)
    (loaded : reader.load counts = some next) : bound.Kept order counts next := by
  obtain ⟨todo, seen⟩ := reader
  obtain ⟨rest, seen_le, before⟩ := kept
  cases todo with
  | nil => cases loaded
  | cons key todo =>
      cases loaded
      have suffix := (List.mem_tails _ _).mp rest
      refine ⟨(List.mem_tails _ _).mpr ((List.suffix_cons key todo).trans suffix),
        fun other => ?_, ?_⟩
      · by_cases same : other = key
        · subst same
          exact Nat.le_of_eq (Function.update_self _ _ _)
        · exact (Nat.le_of_eq (Function.update_of_ne same _ _)).trans (seen_le other)
      · intro behind
        rw [Holds]
        dsimp only at seen_le before ⊢
        by_cases last : bound.late = key
        · -- The late counter is loaded now; the early ones were not larger then than they are now.
          subst last
          rw [Function.update_self]
          refine le_trans (List.sum_le_sum fun other member => ?_) holds
          have different : other ≠ bound.late := fun same => ordered.1 (same ▸ member)
          exact (Nat.le_of_eq (Function.update_of_ne different _ _)).trans (seen_le other)
        · have absent : bound.late ∉ key :: todo :=
            fun member => (List.mem_cons.mp member).elim last behind
          have untouched : bound.early.map (Function.update seen key (counts key)) =
              bound.early.map seen := by
            apply List.map_congr_left
            intro other member
            have different : other ≠ key := by
              rintro rfl
              exact ordered.2 _ rest absent _ member List.mem_cons_self
            exact Function.update_of_ne different _ _
          rw [untouched, Function.update_of_ne last]
          exact before absent

end Bound

end Snapshot
