import Mathlib.Data.Finset.Basic
import Mathlib.Data.Finset.Lattice.Lemmas
import YureiGeyser.Library.Execution

/-!
# Ledgers of owned objects

A ledger lists the objects in existence.  Creating an object that exists, or using or releasing one
that does not, has no result, so code that gets through its operations neither loses, reuses nor
releases an object twice.  `Takes` says what a piece of code does to a ledger; `Takes.append` puts
pieces together, and `Takes.frame` adds objects that a piece does not mention.
-/

/-- What happens to an object. -/
inductive LedgerOp (ρ : Type*)
  | acquire (object : ρ)
  | use (object : ρ)
  | release (object : ρ)
  /-- The object is released unless it does not exist. -/
  | clear (object : ρ)

/-- The object that an operation is about. -/
def LedgerOp.object {ρ : Type*} : LedgerOp ρ → ρ
  | .acquire object => object
  | .use object => object
  | .release object => object
  | .clear object => object

namespace Ledger

variable {ρ : Type*} [DecidableEq ρ]

/-- The ledger after an operation. -/
def step (held : Finset ρ) : LedgerOp ρ → Option (Finset ρ)
  | .acquire object => if object ∈ held then none else some (insert object held)
  | .use object => if object ∈ held then some held else none
  | .release object => if object ∈ held then some (held.erase object) else none
  | .clear object => some (held.erase object)

/-- The operations take one ledger to another. -/
def Takes (ops : List (LedgerOp ρ)) (before after : Finset ρ) : Prop :=
  Execution.run step before ops = some after

instance (ops : List (LedgerOp ρ)) (before after : Finset ρ) : Decidable (Takes ops before after) :=
  inferInstanceAs (Decidable (_ = _))

variable {ops more : List (LedgerOp ρ)} {before middle after rest : Finset ρ}

theorem Takes.nil (held : Finset ρ) : Takes [] held held := rfl

theorem Takes.append (first : Takes ops before middle) (second : Takes more middle after) :
    Takes (ops ++ more) before after :=
  Execution.run_append_eq_some.mpr ⟨middle, first, second⟩

theorem Takes.use {object : ρ} (present : object ∈ before) : Takes [.use object] before before :=
  (Execution.run_singleton before _).trans (if_pos present)

theorem step_frame {op : LedgerOp ρ} (apart : op.object ∉ rest)
    (taken : step before op = some after) :
    step (before ∪ rest) op = some (after ∪ rest) := by
  have erased : ∀ object ∉ rest, (before ∪ rest).erase object = before.erase object ∪ rest := by
    intro object outside
    rw [Finset.erase_union_distrib, Finset.erase_eq_of_notMem outside]
  cases op with
  | acquire object =>
      obtain ⟨absent, ⟨⟩⟩ := Option.ite_none_left_eq_some.mp taken
      have outside : object ∉ before ∪ rest := by
        rw [Finset.mem_union]
        exact not_or.mpr ⟨absent, apart⟩
      rw [step, if_neg outside, Finset.insert_union]
  | use object =>
      obtain ⟨present, ⟨⟩⟩ := Option.ite_none_right_eq_some.mp taken
      rw [step, if_pos (Finset.mem_union_left rest present)]
  | release object =>
      obtain ⟨present, ⟨⟩⟩ := Option.ite_none_right_eq_some.mp taken
      rw [step, if_pos (Finset.mem_union_left rest present), erased object apart]
  | clear object =>
      cases taken
      rw [step, erased object apart]

/-- Objects that are not mentioned stay. -/
theorem Takes.frame (taken : Takes ops before after) (apart : ∀ op ∈ ops, op.object ∉ rest) :
    Takes ops (before ∪ rest) (after ∪ rest) := by
  induction ops generalizing before with
  | nil =>
      cases taken
      rfl
  | cons op ops ih =>
      obtain ⟨next, first, later⟩ := Execution.run_cons_eq_some.mp taken
      have framed := step_frame (apart op List.mem_cons_self) first
      exact Execution.run_cons_eq_some.mpr
        ⟨next ∪ rest, framed, ih later fun op member => apart op (List.mem_cons_of_mem _ member)⟩

end Ledger
