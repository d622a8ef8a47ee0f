import Mathlib.Order.Basic

/-!
# Wait sets

A condition variable guards a resource of which some units are available.  Threads join its wait
set when they find none, a signal moves one of them out of the wait set for every unit that is
given back, and a broadcast moves all of them when the resource is shut.  Woken threads stay woken
until they get the lock, and newcomers may be faster.  A station is *attended* when its sleepers
have no reason to be awake: there are no more units than woken threads.
-/

/-- A resource and the threads that want units of it. -/
structure Station where
  /-- The units that can be taken. -/
  available : ℕ
  /-- The threads in the wait set. -/
  waiting : ℕ
  /-- The threads that have left the wait set but not yet acquired the lock. -/
  woken : ℕ
  /-- The resource is shut. -/
  shut : Bool
  deriving DecidableEq

namespace Station

/-- Threads sleep only while the resource is open and every unit has a woken thread to take it. -/
def Attended (station : Station) : Prop :=
  0 < station.waiting → station.shut = false ∧ station.available ≤ station.woken

/-- What can happen at a station.  The thread that acts may come from the woken ones. -/
inductive Moves (before after : Station) : Prop
  | stay (same : after = before)
  /-- A thread finds no unit and joins the wait set. -/
  | sleep (empty : after.available = 0) (opened : after.shut = false)
  /-- A thread takes a unit. -/
  | take (available : after.available + 1 = before.available)
      (waiting : after.waiting = before.waiting)
      (woken : before.woken ≤ after.woken + 1) (shut : after.shut = before.shut)
  /-- A thread gives back a unit and signals. -/
  | give (available : after.available = before.available + 1)
      (waiting : after.waiting = before.waiting - 1)
      (woken : before.waiting ≠ 0 → after.woken = before.woken + 1)
      (shut : after.shut = before.shut)
  /-- A thread wakes up by itself. -/
  | wake (available : after.available = before.available)
      (waiting : after.waiting ≤ before.waiting) (woken : before.woken ≤ after.woken)
      (shut : after.shut = before.shut)
  /-- A thread gives up, for the resource is shut or there is no unit. -/
  | leave (available : after.available = before.available)
      (waiting : after.waiting = before.waiting)
      (shut : after.shut = before.shut) (cause : before.shut = true ∨ before.available = 0)
  /-- The resource is shut, and everyone is woken. -/
  | shut (waiting : after.waiting = 0)

/-- Every move keeps a station attended. -/
theorem Attended.moves {before after : Station} (attended : before.Attended)
    (moves : Moves before after) : after.Attended := by
  intro sleepers
  cases moves with
  | stay same =>
      rw [same] at sleepers ⊢
      exact attended sleepers
  | sleep empty opened => exact ⟨opened, by omega⟩
  | take available waiting woken shut =>
      obtain ⟨opened, enough⟩ := attended (by omega)
      exact ⟨shut.trans opened, by omega⟩
  | give available waiting woken shut =>
      obtain ⟨opened, enough⟩ := attended (by omega)
      have more := woken (by omega)
      exact ⟨shut.trans opened, by omega⟩
  | wake available waiting woken shut =>
      obtain ⟨opened, enough⟩ := attended (by omega)
      exact ⟨shut.trans opened, by omega⟩
  | leave available waiting shut cause =>
      obtain ⟨opened, enough⟩ := attended (by omega)
      rcases cause with closed | empty
      · rw [opened] at closed
        cases closed
      · exact ⟨shut.trans opened, by omega⟩
  | shut waiting => omega

end Station
