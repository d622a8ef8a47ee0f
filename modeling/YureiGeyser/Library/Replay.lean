import Mathlib.Data.List.Nodup
import Mathlib.Order.Nat

/-!
# Replayed subscriptions

Items land one after the other, and the item at a place of this order is named by the place.  A
subscription with a position is a replay and may deliver whatever its position reaches, one without
a position delivers items that land after its beginning only, and neither delivers an item twice.
If nobody remembers what was delivered before, an item has at most as many outcomes as there are
replays, or one.
-/

namespace Replay

/-- A subscription with what it has delivered and what came of it. -/
structure Session (π ε : Type*) where
  /-- The position of a replay. -/
  position : Option π
  /-- The number of items that had landed at the beginning. -/
  since : ℕ
  /-- The items delivered. -/
  delivered : List ℕ
  /-- The outcomes, each with its item. -/
  outcomes : List (ℕ × ε)

namespace Session

variable {π ε : Type*}

/-- An item may be delivered. -/
def Offers (session : Session π ε) (reaches : π → ℕ → Prop) (landed index : ℕ) : Prop :=
  index < landed ∧ index ∉ session.delivered ∧
    match session.position with
    | some position => reaches position index
    | none => session.since ≤ index

instance (session : Session π ε) (reaches : π → ℕ → Prop)
    [∀ position index, Decidable (reaches position index)] (landed index : ℕ) :
    Decidable (session.Offers reaches landed index) :=
  match session with
  | ⟨some position, _, _, _⟩ => inferInstanceAs (Decidable (_ ∧ _ ∧ reaches position index))
  | ⟨none, _, _, _⟩ => inferInstanceAs (Decidable (_ ∧ _ ∧ _ ≤ _))

/-- An item is delivered. -/
def deliver (session : Session π ε) (index : ℕ) : Session π ε :=
  { session with delivered := session.delivered ++ [index] }

/-- The outcomes of an item are booked. -/
def book (session : Session π ε) (index : ℕ) (outcomes : List ε) : Session π ε :=
  { session with
    outcomes := session.outcomes ++ outcomes.map fun outcome => (index, outcome) }

/-- The number of outcomes of an item. -/
def outcomeCount (session : Session π ε) (index : ℕ) : ℕ :=
  (session.outcomes.map Prod.fst).count index

/-- What holds of a session. -/
structure Sound (session : Session π ε) (landed : ℕ) : Prop where
  once : session.delivered.Nodup
  landed : ∀ index ∈ session.delivered, index < landed
  newer : session.position = none → ∀ index ∈ session.delivered, session.since ≤ index
  booked : ∀ index, session.outcomeCount index ≤ session.delivered.count index

/-- How a session relates to an older one. -/
structure Follows (newer older : Session π ε) : Prop where
  /-- Without a position nothing that landed before is delivered. -/
  fresh : newer.position = none → ∀ index ∈ older.delivered, index < newer.since
  /-- A position that was given up is not taken again. -/
  given_up : older.position = none → newer.position = none

variable {session : Session π ε} {landed index : ℕ}

theorem outcomeCount_book (session : Session π ε) (index : ℕ) (outcomes : List ε) (other : ℕ) :
    (session.book index outcomes).outcomeCount other =
      session.outcomeCount other + if other = index then outcomes.length else 0 := by
  have booked : ((session.outcomes ++ outcomes.map fun outcome => (index, outcome)).map Prod.fst) =
      session.outcomes.map Prod.fst ++ List.replicate outcomes.length index := by
    rw [List.map_append, List.map_map]
    exact congrArg _ List.map_const'
  rw [outcomeCount, book, booked, List.count_append, List.count_replicate, outcomeCount]
  congr 1
  by_cases same : other = index
  · rw [if_pos same, if_pos (beq_iff_eq.mpr same.symm)]
  · rw [if_neg same, if_neg (fun equal => same (beq_iff_eq.mp equal).symm)]

theorem count_deliver (session : Session π ε) (index other : ℕ) :
    session.delivered.count other ≤ (session.deliver index).delivered.count other :=
  (List.sublist_append_left session.delivered [index]).count_le other

theorem count_deliver_self (session : Session π ε) (index : ℕ) :
    (session.deliver index).delivered.count index = session.delivered.count index + 1 := by
  rw [deliver, List.count_append, List.count_singleton_self]

theorem Sound.deliver {reaches : π → ℕ → Prop} (sound : session.Sound landed)
    (offered : session.Offers reaches landed index) : (session.deliver index).Sound landed where
  once := List.nodup_append.mpr ⟨sound.once, List.nodup_singleton index,
    fun one inside other single => by
      rintro rfl
      exact offered.2.1 (List.mem_singleton.mp single ▸ inside)⟩
  landed one inside := by
    rcases List.mem_append.mp inside with before | new
    · exact sound.landed one before
    · rw [List.mem_singleton.mp new]
      exact offered.1
  newer unset one inside := by
    rcases List.mem_append.mp inside with before | new
    · exact sound.newer unset one before
    · rw [List.mem_singleton.mp new]
      have position := offered.2.2
      change session.position = none at unset
      rw [unset] at position
      exact position
  booked one := (sound.booked one).trans (session.count_deliver index one)

/-- A delivered item without an outcome has room for one. -/
theorem Sound.book {outcomes : List ε} (sound : session.Sound landed)
    (room : session.outcomeCount index < session.delivered.count index)
    (single : outcomes.length ≤ 1) : (session.book index outcomes).Sound landed where
  once := sound.once
  landed := sound.landed
  newer := sound.newer
  booked other := by
    change (session.book index outcomes).outcomeCount other ≤ session.delivered.count other
    have before := sound.booked other
    rw [outcomeCount_book]
    by_cases same : other = index
    · rw [if_pos same, same]
      omega
    · rw [if_neg same]
      exact before

theorem Sound.outcomeCount_le_one (sound : session.Sound landed) (index : ℕ) :
    session.outcomeCount index ≤ 1 :=
  (sound.booked index).trans (List.nodup_iff_count_le_one.mp sound.once index)

theorem Sound.outcomeCount_eq_zero (sound : session.Sound landed)
    (absent : index ∉ session.delivered) : session.outcomeCount index = 0 := by
  have booked := sound.booked index
  rw [List.count_eq_zero_of_not_mem absent] at booked
  exact Nat.le_zero.mp booked

end Session

variable {π ε : Type*} {session : Session π ε} {sessions : List (Session π ε)} {landed index : ℕ}

/-- The number of outcomes of an item in all sessions. -/
def totalOutcomes (sessions : List (Session π ε)) (index : ℕ) : ℕ :=
  ((sessions.flatMap fun session => session.outcomes).map Prod.fst).count index

/-- The number of replays. -/
def replayCount (sessions : List (Session π ε)) : ℕ :=
  sessions.countP fun session => session.position.isSome

theorem totalOutcomes_cons (session : Session π ε) (sessions : List (Session π ε)) (index : ℕ) :
    totalOutcomes (session :: sessions) index =
      session.outcomeCount index + totalOutcomes sessions index := by
  rw [totalOutcomes, List.flatMap_cons, List.map_append, List.count_append]
  rfl

theorem totalOutcomes_le_length (sound : ∀ session ∈ sessions, session.Sound landed) (index : ℕ) :
    totalOutcomes sessions index ≤ sessions.length := by
  induction sessions with
  | nil => exact le_rfl
  | cons session sessions induction =>
      have here := (sound session List.mem_cons_self).outcomeCount_le_one index
      have older := induction fun later member => sound later (List.mem_cons_of_mem session member)
      rw [totalOutcomes_cons, List.length_cons]
      omega

theorem totalOutcomes_eq_zero (sound : ∀ session ∈ sessions, session.Sound landed)
    (absent : ∀ session ∈ sessions, index ∉ session.delivered) :
    totalOutcomes sessions index = 0 := by
  induction sessions with
  | nil => rfl
  | cons session sessions induction =>
      rw [totalOutcomes_cons, (sound session List.mem_cons_self).outcomeCount_eq_zero
        (absent session List.mem_cons_self), Nat.zero_add]
      exact induction (fun later member => sound later (List.mem_cons_of_mem session member))
        fun later member => absent later (List.mem_cons_of_mem session member)

/-- Every session replays if the newest one does. -/
theorem replayCount_eq_length {older : List (Session π ε)} (follows : ∀ other ∈ older,
    session.Follows other) (replays : session.position ≠ none) :
    replayCount (session :: older) = (session :: older).length := by
  refine List.countP_eq_length.mpr fun other member => Option.isSome_iff_ne_none.mpr ?_
  cases member with
  | head => exact replays
  | tail _ member => exact fun gone => replays ((follows other member).given_up gone)

/-- An item has at most one outcome, or one for each replay. -/
theorem totalOutcomes_le (sound : ∀ session ∈ sessions, session.Sound landed)
    (order : sessions.Pairwise Session.Follows) (index : ℕ) :
    totalOutcomes sessions index ≤ max 1 (replayCount sessions) := by
  induction sessions with
  | nil => exact Nat.zero_le _
  | cons session older induction =>
      obtain ⟨follows, older_order⟩ := List.pairwise_cons.mp order
      have older_sound : ∀ other ∈ older, other.Sound landed :=
        fun other member => sound other (List.mem_cons_of_mem session member)
      by_cases replays : session.position = none
      · have here := (sound session List.mem_cons_self).outcomeCount_le_one index
        rw [totalOutcomes_cons]
        by_cases delivered : index ∈ session.delivered
        · -- The item landed after the beginning, hence after all older deliveries.
          have nothing : totalOutcomes older index = 0 := by
            refine totalOutcomes_eq_zero older_sound fun other member earlier => ?_
            have before := (follows other member).fresh replays index earlier
            have after := (sound session List.mem_cons_self).newer replays index delivered
            omega
          omega
        · have nothing := (sound session List.mem_cons_self).outcomeCount_eq_zero delivered
          have rest := induction older_sound older_order
          have same : replayCount (session :: older) = replayCount older := by
            rw [replayCount, List.countP_cons, replays]
            rfl
          omega
      · rw [replayCount_eq_length follows replays]
        exact (totalOutcomes_le_length sound index).trans (Nat.le_max_right _ _)

end Replay
