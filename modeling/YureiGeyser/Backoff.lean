import YureiGeyser.Subscription

/-!
# Reconnect delays

`geyser_thread` sleeps after every attempt and then sets the next delay.  A success resets the
delay only behind the sleep, so that the failures before it still count for the sleep that follows.
-/

namespace YureiGeyser

/-- The loop of `geyser_thread`, for the outcomes of `run_subscription`: the delays that it sleeps
after the attempts. -/
def geyserThreadDelays (backoff : ℕ) : List Bool → List ℕ
  | [] => []
  | ok :: outcomes => backoff :: geyserThreadDelays (Client.nextBackoff backoff ok) outcomes

/-- The number of failed attempts at the end of a sequence of outcomes. -/
def consecutiveFailures (outcomes : List Bool) : ℕ :=
  (outcomes.reverse.takeWhile fun ok => !ok).length

/-- The delay after an attempt that depends on the failures up to it only: a second after a success,
and doubled with every failure in a row up to 32 seconds. -/
def backoffDelay (earlier : List Bool) (ok : Bool) : ℕ :=
  if ok then 1 else min 32 (2 ^ (consecutiveFailures (earlier ++ [ok]) - 1))

/-- The thread sleeps that delay after each of its attempts. -/
def BacksOff (outcomes : List Bool) : Prop :=
  ∀ earlier ok later, outcomes = earlier ++ ok :: later →
    (geyserThreadDelays 1 outcomes)[earlier.length]? = some (backoffDelay earlier ok)

@[simp] theorem consecutiveFailures_success (outcomes : List Bool) :
    consecutiveFailures (outcomes ++ [true]) = 0 := by
  simp [consecutiveFailures]

@[simp] theorem consecutiveFailures_failure (outcomes : List Bool) :
    consecutiveFailures (outcomes ++ [false]) = consecutiveFailures outcomes + 1 := by
  simp [consecutiveFailures]

/-- A failure doubles the delay, which stays at 32 seconds from the sixth failure on. -/
theorem nextBackoff_failure (failures : ℕ) :
    Client.nextBackoff (min 32 (2 ^ failures)) false = min 32 (2 ^ (failures + 1)) := by
  simp only [Client.nextBackoff, Bool.false_eq_true, if_false]
  rw [Nat.pow_succ]
  rcases Nat.lt_or_ge failures 5 with few | many
  · have small : 2 ^ failures ≤ 2 ^ 4 := Nat.pow_le_pow_right Nat.two_pos (by omega)
    rw [if_pos (by omega)]
    omega
  · have large : 2 ^ 5 ≤ 2 ^ failures := Nat.pow_le_pow_right Nat.two_pos many
    rw [if_neg (by omega)]
    omega

/-- The variable `backoff` after a sequence of attempts. -/
theorem foldl_nextBackoff (outcomes : List Bool) :
    outcomes.foldl Client.nextBackoff 1 = min 32 (2 ^ consecutiveFailures outcomes) := by
  induction outcomes using List.reverseRecOn with
  | nil => rfl
  | append_singleton outcomes ok ih =>
      rw [List.foldl_append, List.foldl_cons, List.foldl_nil, ih]
      cases ok with
      | true =>
          rw [consecutiveFailures_success, Client.nextBackoff, if_pos rfl, Nat.pow_zero]
          rfl
      | false => rw [consecutiveFailures_failure, nextBackoff_failure]

theorem getElem?_geyserThreadDelays (backoff : ℕ) (earlier : List Bool) (ok : Bool)
    (later : List Bool) :
    (geyserThreadDelays backoff (earlier ++ ok :: later))[earlier.length]? =
      some (earlier.foldl Client.nextBackoff backoff) := by
  induction earlier generalizing backoff with
  | nil => rfl
  | cons first earlier ih => exact ih (Client.nextBackoff backoff first)

/-- After a failure the thread sleeps as it should, after a success only if nothing had failed
directly before. -/
theorem delay_eq_iff (earlier : List Bool) (ok : Bool) :
    earlier.foldl Client.nextBackoff 1 = backoffDelay earlier ok ↔
      (ok = true → consecutiveFailures earlier = 0) := by
  rw [foldl_nextBackoff, backoffDelay]
  cases ok with
  | false => simp
  | true =>
      simp only [if_true, true_implies]
      constructor
      · intro second
        by_contra failed
        have doubled : 2 ^ 1 ≤ 2 ^ consecutiveFailures earlier :=
          Nat.pow_le_pow_right Nat.two_pos (Nat.one_le_iff_ne_zero.mpr failed)
        omega
      · intro none_failed
        rw [none_failed]
        rfl

theorem consecutiveFailures_eq_zero_iff (outcomes : List Bool) :
    consecutiveFailures outcomes = 0 ↔ ∀ earlier, outcomes ≠ earlier ++ [false] := by
  cases outcomes using List.reverseRecOn with
  | nil => simp [consecutiveFailures]
  | append_singleton earlier ok =>
      cases ok with
      | true => simp
      | false => simp

/-- The thread backs off as it should exactly when no attempt succeeds directly after a failed
one. -/
theorem backsOff_iff (outcomes : List Bool) :
    BacksOff outcomes ↔ ¬ [false, true] <:+: outcomes := by
  constructor
  · rintro backs_off ⟨front, back, rfl⟩
    have slept := backs_off (front ++ [false]) true back (by simp)
    have split : front ++ [false, true] ++ back = (front ++ [false]) ++ true :: back := by simp
    rw [split, getElem?_geyserThreadDelays, Option.some.injEq, delay_eq_iff] at slept
    simp at slept
  · rintro never earlier ok later rfl
    rw [getElem?_geyserThreadDelays, Option.some.injEq, delay_eq_iff,
      consecutiveFailures_eq_zero_iff]
    rintro rfl front rfl
    exact never ⟨front, later, by simp⟩

/-- A success after one failure is followed by a sleep of two seconds. -/
theorem not_backsOff_recovered : ¬ BacksOff [false, true] := by
  intro backs_off
  have slept := backs_off [false] true [] rfl
  cases slept

/-! ## The sleeps of a client -/

namespace Client

variable {Buffer : Type} {detector : ProtocolDetector} {unpack : Buffer → Option SubscribeUpdate}

/-- The outcome of the last attempt and the delay, if the thread sleeps in a step. -/
def sleep? (client : Client Buffer) : ClientAction Buffer → Option (Bool × ℕ)
  | .advance =>
      match client.thread with
      | .returned ok => if client.running then some (ok, client.backoff) else none
      | _ => none
  | _ => none

/-- The outcomes and the delays of the sleeps in a run. -/
def sleeps (detector : ProtocolDetector) (unpack : Buffer → Option SubscribeUpdate)
    (client : Client Buffer) : List (ClientAction Buffer) → List (Bool × ℕ)
  | [] => []
  | action :: actions =>
      match client.step detector unpack action with
      | none => []
      | some next => (client.sleep? action).toList ++ sleeps detector unpack next actions

theorem backoff_afterWait (client : Client Buffer) (call : GrpcCall Buffer) (tag : Tag)
    (success : Bool) : (client.afterWait call tag success).backoff = client.backoff := by
  have resumed := resumes_afterWait client call tag success
  generalize client.afterWait call tag success = after at resumed ⊢
  cases resumed <;> rfl

/-- A step changes the next delay exactly when the thread sleeps in it. -/
theorem backoff_of_step {client next : Client Buffer} {action : ClientAction Buffer}
    (taken : client.step detector unpack action = some next) :
    (∃ ok, client.sleep? action = some (ok, client.backoff) ∧
        next.backoff = nextBackoff client.backoff ok) ∨
      (client.sleep? action = none ∧ next.backoff = client.backoff) := by
  cases steps_of_step taken with
  | sleep here running => exact .inl ⟨_, by rw [sleep?, here]; exact if_pos running, rfl⟩
  | leave here stopped =>
      refine .inr ⟨?_, rfl⟩
      rw [sleep?, here]
      exact if_neg (Bool.eq_false_iff.mp stopped)
  | test here => exact .inr ⟨by rw [sleep?, here], rfl⟩
  | cached here found => exact .inr ⟨by rw [sleep?, here], backoff_afterWait _ _ _ _⟩
  | uncached here nothing => exact .inr ⟨by rw [sleep?, here], rfl⟩
  | loop here => exact .inr ⟨by rw [sleep?, here], rfl⟩
  | found buffer here permitted => exact .inr ⟨rfl, backoff_afterWait _ _ _ _⟩
  | _ => exact .inr ⟨rfl, rfl⟩

/-- The delays of a run are those of the loop for the outcomes of its attempts. -/
theorem sleeps_delays (client : Client Buffer) (actions : List (ClientAction Buffer)) :
    (sleeps detector unpack client actions).map Prod.snd =
      geyserThreadDelays client.backoff
        ((sleeps detector unpack client actions).map Prod.fst) := by
  induction actions generalizing client with
  | nil => rfl
  | cons action actions ih =>
      rw [sleeps]
      split
      · rfl
      · next next taken =>
          rcases backoff_of_step taken with ⟨ok, slept, backoff⟩ | ⟨awake, backoff⟩
          · rw [slept]
            simp only [Option.toList_some, List.singleton_append, List.map_cons,
              geyserThreadDelays, ← backoff, ih next]
          · rw [awake]
            simp only [Option.toList_none, List.nil_append, ← backoff, ih next]

end Client

end YureiGeyser
