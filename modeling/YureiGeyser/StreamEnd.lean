import YureiGeyser.Ingest
import YureiGeyser.OpenCall

/-!
# The end of a stream

`run_subscription` leaves its receive loop when the stop flag is cleared, when a receive batch
cannot be started, and when one fails or brings no message.  It then waits for the status, which
comes when the call is over, and it does not cancel the call.
-/

namespace YureiGeyser

namespace Client

variable {Buffer : Type} {detector : ProtocolDetector} {unpack : Buffer → Option SubscribeUpdate}
  {client next : Client Buffer} {action : ClientAction Buffer}

/-- When the thread waits for the status, the server has ended the call.  The client itself never
cancels a call before it has released it. -/
def StatusDue (client : Client Buffer) : Prop :=
  ∀ call, client.thread = .attempt call (.take .status) ∨
    client.thread = .attempt call (.next .status) → call.ended.isSome

/-- What makes the thread leave the receive loop happens on an ended call only. -/
structure LeavesEnded (client : Client Buffer) (action : ClientAction Buffer) : Prop where
  /-- The cleared stop flag is seen. -/
  stopped : ∀ call, client.thread = .attempt call .loop → action = .advance →
    client.running = false → call.ended.isSome
  /-- A receive batch is refused. -/
  refused : ∀ call, client.thread = .attempt call .receive → action = .startReceive false →
    call.ended.isSome
  /-- A receive batch fails or brings no message. -/
  exhausted : ∀ call completion buffer, client.thread = .attempt call (.next .receive) →
    action = .next (.opComplete completion) buffer → completion.tag = .receive →
      completion.success = false ∨ buffer = none → call.ended.isSome

theorem start_statusDue (config : YureiConfig) : (start config : Client Buffer).StatusDue := by
  intro call waits
  rcases waits with here | here <;> cases here

theorem thread_afterWait_eq_take_iff (call later : GrpcCall Buffer) (tag : Tag) (success : Bool) :
    (client.afterWait call tag success).thread = .attempt later (.take .status) ↔
      later = call ∧ tag = .receive ∧ (success = false ∨ call.recvBuffer = none) := by
  have resumed := resumes_afterWait client call tag success
  generalize client.afterWait call tag success = after at resumed
  cases resumed with
  | exhausted closed =>
      constructor
      · rintro ⟨⟩
        exact ⟨rfl, rfl, closed⟩
      · rintro ⟨rfl, -, -⟩
        rfl
  | message received => simp [received]
  | established => simp
  | unestablished => simp
  | rejected replaying told => simp
  | reported accepted => simp

theorem thread_afterWait_ne_next {tag' : Tag} (call later : GrpcCall Buffer) (tag : Tag)
    (success : Bool) :
    (client.afterWait call tag success).thread ≠ .attempt later (.next tag') :=
  fun here => (attempt_afterWait here).2 tag' rfl

/-- A step that leaves the loop on a live call breaks the property at once. -/
theorem leavesEnded_of_statusDue (taken : client.step detector unpack action = some next)
    (due : next.StatusDue) : client.LeavesEnded action where
  stopped call here acts stopped := by
    subst acts
    rw [step, advance, here, stopped] at taken
    cases taken
    exact due call (.inl rfl)
  refused call here acts := by
    subst acts
    rw [step, here] at taken
    cases taken
    exact due call (.inl rfl)
  exhausted call completion buffer here acts tag closed := by
    subst acts
    cases steps_of_step taken with
    | parked buffer there permitted other =>
        rw [here] at there
        cases there
        exact absurd tag other
    | found buffer there permitted =>
        rw [tag] at there
        cases here.symm.trans there
        refine due (call.complete buffer (.opComplete completion)) (.inl ?_)
        refine (thread_afterWait_eq_take_iff _ _ _ _).mpr
          ⟨rfl, tag, closed.imp_right fun null => ?_⟩
        exact (if_pos tag).trans null

/-- Otherwise it is kept. -/
theorem statusDue_of_leavesEnded (sound : client.Sound) (before : client.StatusDue)
    (taken : client.step detector unpack action = some next) (leaves : client.LeavesEnded action) :
    next.StatusDue := by
  intro call waits
  cases steps_of_step taken with
  | stop => exact before call waits
  | ends details here live => rcases waits with there | there <;> cases there <;> rfl
  | test here =>
      dsimp only at waits
      split at waits <;> rcases waits with there | there <;> cases there
  | cached here found =>
      obtain ⟨rfl, -, -⟩ := tag_of_cached (sound _ _ here) found
      rcases waits with there | there <;> exact absurd there (thread_afterStatus_ne _ _ _)
  | uncached here nothing =>
      rcases waits with there | there
      · cases there
      · cases there
        exact before call (.inl here)
  | loop here =>
      dsimp only at waits
      split at waits
      · rcases waits with there | there <;> cases there
      · next stopped =>
          rcases waits with there | there
          · cases there
            exact leaves.stopped _ here rfl (Bool.eq_false_iff.mpr stopped)
          · cases there
  | leave here stopped => rcases waits with there | there <;> cases there
  | sleep here running => rcases waits with there | there <;> cases there
  | subscribed here built => rcases waits with there | there <;> cases there
  | unsubscribed here failed => rcases waits with there | there <;> cases there
  | refused here =>
      rcases waits with there | there
      · cases there
        exact leaves.refused _ here rfl
      · cases there
  | receiving here => rcases waits with there | there <;> cases there
  | timeout buffer here => exact before call waits
  | parked buffer here permitted other =>
      rcases waits with there | there
      · cases there
      · cases there
        have ended := before _ (.inr here)
        exact ended
  | found buffer here permitted =>
      rcases waits with there | there
      · obtain ⟨rfl, tag, closed⟩ := (thread_afterWait_eq_take_iff _ _ _ _).mp there
        rw [tag] at here
        have ended := leaves.exhausted _ _ buffer here rfl tag (closed.imp_right fun null => ?_)
        · exact ended
        · exact (if_pos tag).symm.trans null
      · exact absurd there (thread_afterWait_ne_next _ _ _ _)
  | handled here message ingested => rcases waits with there | there <;> cases there
  | passed calloc here other => rcases waits with there | there <;> cases there

/-- In every run the thread waits for the status of ended calls only, if and only if it leaves the
receive loop on ended calls only. -/
theorem statusDue_iff_leavesEnded (detector : ProtocolDetector)
    (unpack : Buffer → Option SubscribeUpdate) (config : YureiConfig)
    (actions : List (ClientAction Buffer)) :
    Execution.Throughout (step detector unpack) StatusDue (start config) actions ↔
      Execution.Meets (step detector unpack) LeavesEnded (start config) actions := by
  have exact_step : ∀ client action next, (client : Client Buffer).Sound → client.StatusDue →
      client.step detector unpack action = some next →
        (next.StatusDue ↔ client.LeavesEnded action) := by
    intro client action next sound due taken
    exact ⟨leavesEnded_of_statusDue taken, statusDue_of_leavesEnded sound due taken⟩
  exact Execution.throughout_iff_meets (fun client action next => sound_step) exact_step
    (start_sound config) (start_statusDue config) actions

/-- While the thread waits for the status of a live call, nothing but the server ends the wait. -/
theorem waits_of_live {call : GrpcCall Buffer} (sound : client.Sound)
    (waits : client.thread = .attempt call (.next .status)) (live : call.ended = none)
    (taken : client.step detector unpack action = some next)
    (silent : ∀ details, action ≠ .serverEnds details) :
    next.thread = .attempt call (.next .status) := by
  cases steps_of_step taken with
  | stop => exact waits
  | ends details here running => exact absurd rfl (silent details)
  | timeout buffer here => exact waits
  | parked buffer here permitted other =>
      cases waits.symm.trans here
      have outstanding := (GrpcCall.outstanding_of_permits permitted).1
      rcases (sound _ _ waits).awaited _ outstanding with status | taking | waiting
      · exact absurd status other
      · cases taking
      · injection waiting with same
        exact absurd same.symm other
  | found buffer here permitted =>
      injection waits.symm.trans here with same_call same_point
      injection same_point with status
      have ended := ((GrpcCall.outstanding_of_permits permitted).2 status.symm).2
      rw [← same_call, live] at ended
      cases ended
  | test here => cases waits.symm.trans here
  | cached here found => cases waits.symm.trans here
  | uncached here nothing => cases waits.symm.trans here
  | loop here => cases waits.symm.trans here
  | leave here stopped => cases waits.symm.trans here
  | sleep here running => cases waits.symm.trans here
  | subscribed here built => cases waits.symm.trans here
  | unsubscribed here failed => cases waits.symm.trans here
  | refused here => cases waits.symm.trans here
  | receiving here => cases waits.symm.trans here
  | handled here message ingested => cases waits.symm.trans here
  | passed calloc here other => cases waits.symm.trans here

end Client

/-- A client without program ids whose messages are no transactions. -/
def idleStep : Client Unit → ClientAction Unit → Option (Client Unit) :=
  Client.step (protocolDetectorInit (filledKey 1) false (filledKey 2) false) fun _ => some .other

/-- The stop request reaches a subscription that has just received a message. -/
def stopActions : List (ClientAction Unit) :=
  [.advance, .subscribe ⟨true, true, true⟩ true, .advance,
    .next (.opComplete ⟨.handshake, true⟩) none, .advance, .startReceive true, .advance,
    .next (.opComplete ⟨.receive, true⟩) (some ()), .handle true, .stop, .advance]

/-- The thread then waits for the status of a live call. -/
theorem not_statusDue_stop :
    ¬ Execution.Throughout idleStep Client.StatusDue (Client.start ⟨false, 0⟩) stopActions := by
  intro due
  have reached : ∃ final call, Execution.run idleStep (Client.start ⟨false, 0⟩) stopActions =
      some final ∧ final.thread = .attempt call (.take .status) ∧ call.ended = none :=
    ⟨_, _, rfl, rfl, rfl⟩
  obtain ⟨final, call, execution, waits, live⟩ := reached
  have ended := due.finally execution call (.inl waits)
  rw [live] at ended
  cases ended

end YureiGeyser
