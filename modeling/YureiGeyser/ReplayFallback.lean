import YureiGeyser.Ingest
import YureiGeyser.OpenCall

/-!
# The fallback from a resume position

An endpoint without replay ends the call with a status that says so.  The check of the status
details follows the wait for the status, which a failed handshake skips: a rejection that makes the
handshake fail leaves the resume position set, and the next request carries it again.
-/

namespace YureiGeyser

namespace Client

variable {Buffer : Type} {detector : ProtocolDetector} {unpack : Buffer → Option SubscribeUpdate}
  {client next : Client Buffer} {action : ClientAction Buffer}

/-- The server has ended the call of the current attempt by rejecting its resume position. -/
def Rejected (client : Client Buffer) : Prop :=
  ∃ call point details, client.thread = .attempt call point ∧ call.ended = some details ∧
    client.config.fromSlotSet = true ∧ fromSlotNotSupported.bytes <:+: details

/-- The handshake batch fails. -/
def HandshakeFails (client : Client Buffer) (action : ClientAction Buffer) : Prop :=
  ∃ call buffer, client.thread = .attempt call (.next .handshake) ∧
    action = .next (.opComplete ⟨.handshake, false⟩) buffer

/-- The thread is about to build a request with a resume position. -/
def Requests (client : Client Buffer) (detector : ProtocolDetector) (fromSlot : Option UInt64) :
    Prop :=
  client.thread = .subscribe ∧ ∃ memory request,
    buildSubscribePayload client.config detector memory = some request ∧
      request.fromSlot = fromSlot

theorem Requests.fromSlot_eq {fromSlot : Option UInt64}
    (requests : client.Requests detector fromSlot) :
    fromSlot = if client.config.fromSlotSet then some client.config.fromSlot else none := by
  obtain ⟨-, memory, request, built, rfl⟩ := requests
  exact buildSubscribePayload_fromSlot built

theorem requests_of_subscribe (here : client.thread = .subscribe) :
    client.Requests detector
      (if client.config.fromSlotSet then some client.config.fromSlot else none) :=
  ⟨here, ⟨true, true, true⟩, _, rfl, rfl⟩

/-! ## Runs -/

/-- After the rejection of an attempt no request carries a resume position. -/
def FallsBack (detector : ProtocolDetector) (unpack : Buffer → Option SubscribeUpdate)
    (config : YureiConfig) (actions : List (ClientAction Buffer)) : Prop :=
  ∀ front back rest rejected later fromSlot, actions = front ++ (back ++ rest) →
    Execution.run (step detector unpack) (start config) front = some rejected → rejected.Rejected →
      Execution.run (step detector unpack) rejected back = some later →
        later.Requests detector fromSlot → fromSlot = none

/-- As long as no attempt has been rejected, every request carries the configured position. -/
def Replays (detector : ProtocolDetector) (unpack : Buffer → Option SubscribeUpdate)
    (config : YureiConfig) (actions : List (ClientAction Buffer)) : Prop :=
  ∀ front rest later fromSlot, actions = front ++ rest →
    Execution.Throughout (step detector unpack) (fun client => ¬ client.Rejected) (start config)
        front →
      Execution.run (step detector unpack) (start config) front = some later →
        later.Requests detector fromSlot →
          fromSlot = if config.fromSlotSet then some config.fromSlot else none

/-- When the handshake of a rejected attempt fails, the thread makes no further request. -/
def RejectionsAnswered (detector : ProtocolDetector) (unpack : Buffer → Option SubscribeUpdate)
    (config : YureiConfig) (actions : List (ClientAction Buffer)) : Prop :=
  ∀ front failure back rest rejected failed later,
    actions = front ++ (failure :: (back ++ rest)) →
      Execution.run (step detector unpack) (start config) front = some rejected →
        rejected.Rejected → rejected.HandshakeFails failure →
          rejected.step detector unpack failure = some failed →
            Execution.run (step detector unpack) failed back = some later →
              later.thread ≠ .subscribe

/-! ## Steps -/

theorem sliceContainsString_fromSlot_iff (details : List UInt8) :
    sliceContainsString details fromSlotNotSupported = true ↔
      fromSlotNotSupported.bytes <:+: details :=
  sliceContainsString_iff details (by decide +kernel)

/-- The completion of the status has written what the server has said. -/
theorem statusDetails_complete {call : GrpcCall Buffer} {completion : Completion}
    (buffer : Option Buffer) (permitted : call.Permits (.opComplete completion))
    (status : completion.tag = .status) :
    completion.success = true ∧
      call.ended = some (call.complete buffer (.opComplete completion)).statusDetails := by
  obtain ⟨success, closed⟩ := (GrpcCall.outstanding_of_permits permitted).2 status
  obtain ⟨details, ended⟩ := Option.isSome_iff_exists.mp closed
  refine ⟨success, ?_⟩
  change call.ended = some (if completion.tag = .status then call.ended.getD [] else _)
  rw [if_pos status, ended]
  rfl

/-- The wait for the status changes the configuration of a rejected attempt only. -/
theorem config_afterStatus {call : GrpcCall Buffer} {point : CallPoint Buffer}
    {later : GrpcCall Buffer} (here : client.thread = .attempt call point)
    (ended : call.ended = some later.statusDetails) (success : Bool) :
    (client.afterWait later .status success).config = client.config ∨ client.Rejected := by
  have resumed := resumes_afterWait client later .status success
  generalize client.afterWait later .status success = after at resumed ⊢
  cases resumed with
  | rejected replaying told =>
      have text := (sliceContainsString_fromSlot_iff _).mp told
      exact .inr ⟨call, point, _, here, ended, replaying, text⟩
  | reported accepted => exact .inl rfl

/-- The other waits do not change the configuration. -/
theorem config_afterWait (call : GrpcCall Buffer) {tag : Tag} (other : tag ≠ .status)
    (success : Bool) : (client.afterWait call tag success).config = client.config := by
  have resumed := resumes_afterWait client call tag success
  generalize client.afterWait call tag success = after at resumed ⊢
  cases resumed with
  | rejected replaying told => exact absurd rfl other
  | reported accepted => exact absurd rfl other
  | _ => rfl

/-- Only the status of a rejected attempt changes the configuration. -/
theorem config_step (sound : client.Sound)
    (taken : client.step detector unpack action = some next) :
    next.config = client.config ∨ client.Rejected := by
  cases steps_of_step taken with
  | cached here found =>
      obtain ⟨rfl, -, absent⟩ := tag_of_cached (sound _ _ here) found
      exact config_afterStatus here ((sound _ _ here).details absent) _
  | @found call completion buffer here permitted =>
      by_cases status : completion.tag = .status
      · rw [status] at here ⊢
        exact config_afterStatus here (statusDetails_complete buffer permitted status).2 _
      · exact .inl (config_afterWait _ status _)
  | _ => exact .inl rfl

/-- The resume position is never set again. -/
theorem fromSlotSet_step (taken : client.step detector unpack action = some next)
    (disabled : client.config.fromSlotSet = false) : next.config.fromSlotSet = false := by
  have resumed : ∀ call tag success,
      (client.afterWait call tag success).config.fromSlotSet = false := by
    intro call tag success
    have resumed := resumes_afterWait client call tag success
    generalize client.afterWait call tag success = after at resumed ⊢
    cases resumed with
    | rejected replaying told => rfl
    | _ => exact disabled
  cases steps_of_step taken with
  | cached here found => exact resumed _ _ _
  | found buffer here permitted => exact resumed _ _ _
  | _ => exact disabled

/-- Reading the status of a rejection gives up the resume position. -/
theorem fromSlotSet_afterStatus {later : GrpcCall Buffer}
    (told : fromSlotNotSupported.bytes <:+: later.statusDetails) :
    (client.afterWait later .status true).config.fromSlotSet = false := by
  have resumed := resumes_afterWait client later .status true
  generalize client.afterWait later .status true = after at resumed ⊢
  cases resumed with
  | rejected replaying told => rfl
  | reported accepted =>
      by_contra kept
      have contains := (sliceContainsString_fromSlot_iff _).mpr told
      rw [accepted rfl (Bool.of_not_eq_false kept)] at contains
      cases contains

theorem thread_of_handshakeFails (taken : client.step detector unpack action = some next)
    (fails : client.HandshakeFails action) :
    next.thread = .returned false ∧ next.config = client.config := by
  obtain ⟨call, buffer, waits, rfl⟩ := fails
  cases steps_of_step taken with
  | parked buffer here permitted other =>
      cases waits.symm.trans here
      exact absurd rfl other
  | found buffer here permitted => exact ⟨rfl, rfl⟩

/-- An attempt stays rejected until its status is read, unless its handshake fails. -/
theorem rejected_step (sound : client.Sound)
    (taken : client.step detector unpack action = some next) (rejected : client.Rejected) :
    next.Rejected ∨ next.config.fromSlotSet = false ∨ client.HandshakeFails action := by
  obtain ⟨call, point, details, attempted, ended, replaying, text⟩ := rejected
  have stays : ∀ (after : Client Buffer) later point, after.thread = .attempt later point →
      later.ended = some details → after.config = client.config → after.Rejected := by
    intro after later point there same kept
    exact ⟨later, point, details, there, same, by rw [kept, replaying], text⟩
  cases steps_of_step taken with
  | stop => exact .inl (stays _ call point attempted ended rfl)
  | ends details here live =>
      cases attempted.symm.trans here
      rw [live] at ended
      cases ended
  | cached here found =>
      cases attempted.symm.trans here
      obtain ⟨rfl, success, absent⟩ := tag_of_cached (sound _ _ here) found
      cases ended.symm.trans ((sound _ _ here).details absent)
      rw [success]
      exact .inr (.inl (fromSlotSet_afterStatus text))
  | @found call completion buffer here permitted =>
      obtain ⟨tag, success⟩ := completion
      cases attempted.symm.trans here
      cases tag with
      | handshake =>
          cases success with
          | true => exact .inl (stays _ _ _ rfl ended rfl)
          | false => exact .inr (.inr ⟨_, buffer, here, rfl⟩)
      | status =>
          obtain ⟨rfl, closed⟩ := statusDetails_complete buffer permitted rfl
          cases ended.symm.trans closed
          exact .inr (.inl (fromSlotSet_afterStatus text))
      | receive =>
          have resumed := resumes_afterWait client
            (call.complete buffer (.opComplete ⟨.receive, success⟩)) .receive success
          dsimp only
          generalize client.afterWait _ .receive success = after at resumed ⊢
          cases resumed with
          | message received => exact .inl (stays _ _ _ rfl ended rfl)
          | exhausted closed => exact .inl (stays _ _ _ rfl ended rfl)
  | timeout buffer here => exact .inl (stays _ call point attempted ended rfl)
  | test here => cases attempted.symm.trans here
  | leave here stopped => cases attempted.symm.trans here
  | sleep here running => cases attempted.symm.trans here
  | subscribed here built => cases attempted.symm.trans here
  | unsubscribed here failed => cases attempted.symm.trans here
  | uncached here nothing =>
      cases attempted.symm.trans here
      exact .inl (stays _ _ _ rfl ended rfl)
  | loop here =>
      cases attempted.symm.trans here
      exact .inl (stays _ _ _ rfl ended rfl)
  | refused here =>
      cases attempted.symm.trans here
      exact .inl (stays _ _ _ rfl ended rfl)
  | receiving here =>
      cases attempted.symm.trans here
      exact .inl (stays _ _ _ rfl ended rfl)
  | parked buffer here permitted other =>
      cases attempted.symm.trans here
      exact .inl (stays _ _ _ rfl ended rfl)
  | handled here message ingested =>
      cases attempted.symm.trans here
      exact .inl (stays _ _ _ rfl ended rfl)
  | passed calloc here other =>
      cases attempted.symm.trans here
      exact .inl (stays _ _ _ rfl ended rfl)

/-! ## Whole runs -/

section Runs

variable {later : Client Buffer} {actions : List (ClientAction Buffer)} {config : YureiConfig}

theorem config_run (sound : client.Sound)
    (unrejected : Execution.Throughout (step detector unpack) (fun client => ¬ client.Rejected)
      client actions)
    (execution : Execution.run (step detector unpack) client actions = some later) :
    later.config = client.config := by
  induction actions generalizing client with
  | nil =>
      obtain rfl := Option.some.inj execution
      rfl
  | cons action actions induction =>
      obtain ⟨next, taken, rest⟩ := Execution.run_cons_eq_some.mp execution
      rw [induction (sound_step sound taken) (unrejected.2 next taken) rest]
      exact (config_step sound taken).resolve_right unrejected.1

theorem replays : Replays detector unpack config actions := by
  intro front rest later fromSlot _ unrejected execution requests
  rw [requests.fromSlot_eq, config_run (start_sound config) unrejected execution]
  rfl

/-- From a rejected attempt on, the resume position is gone at the next request, if the failed
handshakes of rejected attempts are not followed by requests. -/
theorem fromSlotSet_run (sound : client.Sound)
    (rejected : client.Rejected ∨ client.config.fromSlotSet = false)
    (answered : ∀ middle failure back before failed later, actions = middle ++ failure :: back →
      Execution.run (step detector unpack) client middle = some before → before.Rejected →
        before.HandshakeFails failure → before.step detector unpack failure = some failed →
          Execution.run (step detector unpack) failed back = some later →
            later.thread ≠ .subscribe)
    (execution : Execution.run (step detector unpack) client actions = some later)
    (here : later.thread = .subscribe) : later.config.fromSlotSet = false := by
  induction actions generalizing client with
  | nil =>
      obtain rfl := Option.some.inj execution
      rcases rejected with ⟨call, point, details, there, -⟩ | disabled
      · cases here.symm.trans there
      · exact disabled
  | cons action actions induction =>
      obtain ⟨next, taken, rest⟩ := Execution.run_cons_eq_some.mp execution
      have continues : next.Rejected ∨ next.config.fromSlotSet = false := by
        rcases rejected with rejected | disabled
        · rcases rejected_step sound taken rejected with still | disabled | fails
          · exact .inl still
          · exact .inr disabled
          · exact absurd here (answered [] action actions client next later rfl rfl rejected fails
              taken rest)
        · exact .inr (fromSlotSet_step taken disabled)
      refine induction (sound_step sound taken) continues ?_ rest
      intro middle failure back before failed final same run_middle
      refine answered (action :: middle) failure back before failed final ?_ ?_
      · rw [same, List.cons_append]
      · exact Execution.run_cons_eq_some.mpr ⟨next, taken, run_middle⟩

theorem outside_step (outside : ∀ call point, client.thread ≠ .attempt call point)
    (elsewhere : client.thread ≠ .subscribe)
    (taken : client.step detector unpack action = some next) :
    (∀ call point, next.thread ≠ .attempt call point) ∧ next.config = client.config := by
  cases steps_of_step taken with
  | stop => exact ⟨outside, rfl⟩
  | test here =>
      refine ⟨fun call point there => ?_, rfl⟩
      dsimp only at there
      split at there <;> cases there
  | leave here stopped =>
      refine ⟨fun call point there => ?_, rfl⟩
      cases there
  | sleep here running =>
      refine ⟨fun call point there => ?_, rfl⟩
      cases there
  | subscribed here built => exact absurd here elsewhere
  | unsubscribed here failed => exact absurd here elsewhere
  | ends details here live => exact absurd here (outside _ _)
  | cached here found => exact absurd here (outside _ _)
  | uncached here nothing => exact absurd here (outside _ _)
  | loop here => exact absurd here (outside _ _)
  | refused here => exact absurd here (outside _ _)
  | receiving here => exact absurd here (outside _ _)
  | timeout buffer here => exact absurd here (outside _ _)
  | parked buffer here permitted other => exact absurd here (outside _ _)
  | found buffer here permitted => exact absurd here (outside _ _)
  | handled here message ingested => exact absurd here (outside _ _)
  | passed calloc here other => exact absurd here (outside _ _)

/-- A thread outside of an attempt that gets to a request gets to one with the same
configuration. -/
theorem exists_request (outside : ∀ call point, client.thread ≠ .attempt call point)
    (execution : Execution.run (step detector unpack) client actions = some later)
    (here : later.thread = .subscribe) :
    ∃ front back reached, actions = front ++ back ∧
      Execution.run (step detector unpack) client front = some reached ∧
        reached.thread = .subscribe ∧ reached.config = client.config := by
  induction actions generalizing client with
  | nil =>
      obtain rfl := Option.some.inj execution
      exact ⟨[], [], client, rfl, rfl, here, rfl⟩
  | cons action actions induction =>
      by_cases elsewhere : client.thread = .subscribe
      · exact ⟨[], action :: actions, client, rfl, rfl, elsewhere, rfl⟩
      · obtain ⟨next, taken, rest⟩ := Execution.run_cons_eq_some.mp execution
        obtain ⟨outside, kept⟩ := outside_step outside elsewhere taken
        obtain ⟨front, back, reached, same, run_front, there, config_eq⟩ := induction outside rest
        refine ⟨action :: front, back, reached, ?_, ?_, there, config_eq.trans kept⟩
        · rw [same, List.cons_append]
        · exact Execution.run_cons_eq_some.mpr ⟨next, taken, run_front⟩

theorem fallsBack_of_rejectionsAnswered
    (answered : RejectionsAnswered detector unpack config actions) :
    FallsBack detector unpack config actions := by
  intro front back rest rejected later fromSlot same run_front rejection run_back requests
  have disabled : later.config.fromSlotSet = false := by
    refine fromSlotSet_run (sound_run (start_sound config) run_front) (.inl rejection) ?_ run_back
      requests.1
    intro middle failure tail before failed final same_back run_middle
    have run_before : Execution.run (step detector unpack) (start config) (front ++ middle) =
        some before := Execution.run_append_eq_some.mpr ⟨rejected, run_front, run_middle⟩
    refine answered (front ++ middle) failure tail rest before failed final ?_ run_before
    rw [same, same_back]
    simp only [List.append_assoc, List.cons_append]
  rw [requests.fromSlot_eq, disabled]
  rfl

theorem rejectionsAnswered_of_fallsBack (fallsBack : FallsBack detector unpack config actions) :
    RejectionsAnswered detector unpack config actions := by
  intro front failure back rest rejected failed later same run_front rejection fails taken run_back
    here
  have sound := sound_run (start_sound config) run_front
  obtain ⟨call, point, details, attempted, ended, replaying, text⟩ := rejection
  obtain ⟨returned, kept⟩ := thread_of_handshakeFails taken fails
  have outside : ∀ call point, failed.thread ≠ .attempt call point := by
    intro call point there
    cases returned.symm.trans there
  obtain ⟨middle, tail, reached, same_back, run_middle, there, config_eq⟩ :=
    exists_request outside run_back here
  have carried : reached.config.fromSlotSet = true := by rw [config_eq, kept, replaying]
  have run_reached : Execution.run (step detector unpack) rejected (failure :: middle) =
      some reached := Execution.run_cons_eq_some.mpr ⟨failed, taken, run_middle⟩
  have none_carried := fallsBack front (failure :: middle) (tail ++ rest) rejected reached _ ?_
    run_front ⟨call, point, details, attempted, ended, replaying, text⟩ run_reached
    (requests_of_subscribe there)
  · rw [carried] at none_carried
    cases none_carried
  · rw [same, same_back]
    simp only [List.append_assoc, List.cons_append]

/-- In every run the thread falls back from a rejected resume position, and otherwise keeps to the
configured one, if and only if failed handshakes of rejected attempts are not followed by
requests. -/
theorem fallsBack_iff_rejectionsAnswered (detector : ProtocolDetector)
    (unpack : Buffer → Option SubscribeUpdate) (config : YureiConfig)
    (actions : List (ClientAction Buffer)) :
    FallsBack detector unpack config actions ∧ Replays detector unpack config actions ↔
      RejectionsAnswered detector unpack config actions := by
  constructor
  · rintro ⟨fallsBack, -⟩
    exact rejectionsAnswered_of_fallsBack fallsBack
  · intro answered
    exact ⟨fallsBack_of_rejectionsAnswered answered, replays⟩

end Runs

end Client

/-- The server rejects the first request before its handshake has completed. -/
def rejectedFront : List (ClientAction Unit) :=
  [.advance, .subscribe ⟨true, true, true⟩ true, .advance, .serverEnds fromSlotNotSupported.bytes]

/-- The handshake fails, and the thread comes to its next request. -/
def rejectedBack : List (ClientAction Unit) :=
  [.next (.opComplete ⟨.handshake, false⟩) none, .advance, .advance]

/-- The next request carries the rejected position again. -/
theorem not_fallsBack_failed_handshake :
    ¬ Client.FallsBack (protocolDetectorInit (filledKey 1) false (filledKey 2) false)
      (fun _ => some .other) ⟨true, 7⟩ (rejectedFront ++ rejectedBack) := by
  intro fallsBack
  have resends : some 7 = (none : Option UInt64) := by
    refine fallsBack rejectedFront rejectedBack [] _ _ (some 7) (by rw [List.append_nil]) rfl
      ⟨_, _, _, rfl, rfl, rfl, List.infix_refl _⟩ rfl ?_
    exact Client.requests_of_subscribe rfl
  cases resends

end YureiGeyser
