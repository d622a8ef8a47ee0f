import YureiGeyser.Subscription

/-!
# Open calls

While a call is open at most one batch is awaited, and the only other batch is that of the status.
So nothing but the completion of the status is ever parked, and what it has written are the
details with which the server has ended the call.
-/

namespace YureiGeyser

/-- Only the status batch may complete while another one is awaited. -/
structure GrpcCall.Sound {Buffer : Type} (call : GrpcCall Buffer) (point : CallPoint Buffer) :
    Prop where
  awaited : ∀ tag, call.outstanding tag = true →
    tag = .status ∨ point = .take tag ∨ point = .next tag
  parked : ∀ completion ∈ call.eventCache.parked,
    completion.tag = .status ∧ completion.success = true ∧ call.outstanding .status = false
  details : call.outstanding .status = false → call.ended = some call.statusDetails

/-- No batch is awaited. -/
def CallPoint.Idle {Buffer : Type} : CallPoint Buffer → Prop
  | .take _ => False
  | .next _ => False
  | _ => True

namespace GrpcCall

variable {Buffer : Type} {call : GrpcCall Buffer} {point : CallPoint Buffer}

theorem fresh_sound : (fresh : GrpcCall Buffer).Sound (.take .handshake) where
  awaited tag outstanding := by
    cases tag with
    | handshake => exact .inr (.inl rfl)
    | status => exact .inl rfl
    | receive => cases outstanding
  parked completion member := by cases member
  details absent := by cases absent

/-- Between two waits nothing but the status is outstanding. -/
theorem Sound.of_idle (sound : call.Sound point) (idle : point.Idle) (later : CallPoint Buffer) :
    call.Sound later where
  awaited tag outstanding := by
    rcases sound.awaited tag outstanding with status | rfl | rfl
    · exact .inl status
    · exact idle.elim
    · exact idle.elim
  parked := sound.parked
  details := sound.details

theorem outstanding_of_permits {completion : Completion}
    (permitted : call.Permits (.opComplete completion)) :
    call.outstanding completion.tag = true ∧
      (completion.tag = .status → completion.success = true ∧ call.ended.isSome) := by
  rw [Permits, Bool.and_eq_true] at permitted
  refine ⟨permitted.1, fun status => ?_⟩
  simpa [status] using permitted.2

theorem outstanding_complete {completion : Completion} {buffer : Option Buffer} {tag : Tag}
    (absent : call.outstanding tag = false) :
    (call.complete buffer (.opComplete completion)).outstanding tag = false := by
  change Function.update call.outstanding completion.tag false tag = false
  by_cases same : tag = completion.tag
  · rw [same, Function.update_self]
  · rwa [Function.update_of_ne same]

/-- Once the status batch has completed, its details are those of the end of the call. -/
theorem details_complete {completion : Completion} {buffer : Option Buffer}
    (sound : call.Sound point) (permitted : call.Permits (.opComplete completion))
    (absent : (call.complete buffer (.opComplete completion)).outstanding .status = false) :
    (call.complete buffer (.opComplete completion)).ended =
      some (call.complete buffer (.opComplete completion)).statusDetails := by
  change Function.update call.outstanding completion.tag false .status = false at absent
  change call.ended =
    some (if completion.tag = .status then call.ended.getD [] else call.statusDetails)
  by_cases status : completion.tag = .status
  · obtain ⟨details, closed⟩ :=
      Option.isSome_iff_exists.mp ((outstanding_of_permits permitted).2 status).2
    rw [if_pos status, closed]
    rfl
  · rw [Function.update_of_ne (Ne.symm status)] at absent
    rw [if_neg status]
    exact sound.details absent

/-- The completion of an awaited batch leaves nothing but the status outstanding. -/
theorem Sound.complete {completion : Completion} {buffer : Option Buffer}
    (sound : call.Sound (.next completion.tag)) (permitted : call.Permits (.opComplete completion))
    (later : CallPoint Buffer) : (call.complete buffer (.opComplete completion)).Sound later where
  awaited tag outstanding := by
    change Function.update call.outstanding completion.tag false tag = true at outstanding
    by_cases same : tag = completion.tag
    · rw [same, Function.update_self] at outstanding
      cases outstanding
    · rw [Function.update_of_ne same] at outstanding
      rcases sound.awaited tag outstanding with status | taking | waiting
      · exact .inl status
      · cases taking
      · cases waiting
        exact absurd rfl same
  parked stored member := by
    obtain ⟨tag, success, absent⟩ := sound.parked stored member
    exact ⟨tag, success, outstanding_complete absent⟩
  details absent := details_complete sound permitted absent

/-- A completion that is not awaited is that of the status. -/
theorem Sound.park {completion : Completion} {buffer : Option Buffer} {tag : Tag}
    (sound : call.Sound (.next tag)) (permitted : call.Permits (.opComplete completion))
    (other : completion.tag ≠ tag) :
    Sound { call.complete buffer (.opComplete completion) with
      eventCache := cqCacheStore call.eventCache completion } (.next tag) := by
  obtain ⟨outstanding, promised⟩ := outstanding_of_permits permitted
  have status : completion.tag = .status := by
    rcases sound.awaited _ outstanding with status | taking | waiting
    · exact status
    · cases taking
    · cases waiting
      exact absurd rfl other
  have gone : Function.update call.outstanding completion.tag false .status = false := by
    rw [status, Function.update_self]
  refine ⟨fun later remaining => ?_, fun stored member => ?_,
    @details_complete _ _ _ _ buffer sound permitted⟩
  · change Function.update call.outstanding completion.tag false later = true at remaining
    by_cases same : later = completion.tag
    · exact .inl (same.trans status)
    · rw [Function.update_of_ne same] at remaining
      exact sound.awaited later remaining
  · rcases mem_cqCacheStore member with rfl | before
    · exact ⟨status, (promised status).1, gone⟩
    · obtain ⟨tag, success, -⟩ := sound.parked stored before
      exact ⟨tag, success, gone⟩

theorem Sound.of_take {tag : Tag} (sound : call.Sound (.take tag)) : call.Sound (.next tag) where
  awaited later outstanding := by
    rcases sound.awaited later outstanding with status | taking | waiting
    · exact .inl status
    · cases taking
      exact .inr (.inr rfl)
    · cases waiting
  parked := sound.parked
  details := sound.details

theorem Sound.receiving (sound : call.Sound .receive) :
    call.receiving.Sound (.take .receive) where
  awaited tag outstanding := by
    cases tag with
    | status => exact .inl rfl
    | receive => exact .inr (.inl rfl)
    | handshake =>
        rcases sound.awaited .handshake outstanding with status | taking | waiting
        · cases status
        · cases taking
        · cases waiting
  parked := sound.parked
  details := sound.details

end GrpcCall

namespace Client

variable {Buffer : Type} {detector : ProtocolDetector} {unpack : Buffer → Option SubscribeUpdate}
  {client next : Client Buffer} {action : ClientAction Buffer}

/-- The call of the thread is sound. -/
def Sound (client : Client Buffer) : Prop :=
  ∀ call point, client.thread = .attempt call point → call.Sound point

theorem sound_afterWait {call : GrpcCall Buffer} (sound : ∀ point, call.Sound point) (tag : Tag)
    (success : Bool) : (client.afterWait call tag success).Sound := by
  intro later point here
  have resumed := resumes_afterWait client call tag success
  generalize client.afterWait call tag success = after at resumed here
  cases resumed with
  | established =>
      cases here
      exact sound _
  | message received =>
      cases here
      exact sound _
  | exhausted closed =>
      cases here
      exact sound _
  | unestablished => cases here
  | rejected replaying told => cases here
  | reported accepted => cases here

theorem thread_afterStatus_ne {point : CallPoint Buffer} (call later : GrpcCall Buffer)
    (success : Bool) : (client.afterWait call .status success).thread ≠ .attempt later point := by
  intro here
  have resumed := resumes_afterWait client call .status success
  generalize client.afterWait call .status success = after at resumed here
  cases resumed with
  | rejected replaying told => cases here
  | reported accepted => cases here

/-- A wait that finds a parked completion is the one for the status. -/
theorem tag_of_cached {call : GrpcCall Buffer} {tag : Tag} {completion : Completion}
    {cache : EventCache} (sound : call.Sound (.take tag))
    (taken : cqCacheTake call.eventCache tag = some (completion, cache)) :
    tag = .status ∧ completion.success = true ∧ call.outstanding .status = false := by
  obtain ⟨same, items⟩ := cqCacheTake_eq_some taken
  obtain ⟨status, success, absent⟩ :=
    sound.parked completion (items.mem_iff.mpr List.mem_cons_self)
  exact ⟨same.symm.trans status, success, absent⟩

/-- Soundness is kept by every step. -/
theorem sound_step (sound : client.Sound) (taken : client.step detector unpack action = some next) :
    next.Sound := by
  cases steps_of_step taken with
  | stop => exact sound
  | ends details here live =>
      intro call point there
      cases there
      have before := sound _ _ here
      refine ⟨before.awaited, before.parked, fun absent => ?_⟩
      have closed := before.details absent
      rw [live] at closed
      cases closed
  | test here =>
      intro call point there
      dsimp only at there
      split at there <;> cases there
  | cached here found =>
      obtain ⟨rfl, -, -⟩ := tag_of_cached (sound _ _ here) found
      intro call point there
      exact absurd there (thread_afterStatus_ne _ _ _)
  | uncached here nothing =>
      intro call point there
      cases there
      exact (sound _ _ here).of_take
  | loop here =>
      intro call point there
      cases there
      exact (sound _ _ here).of_idle trivial _
  | leave here stopped =>
      intro call point there
      cases there
  | sleep here running =>
      intro call point there
      cases there
  | subscribed here built =>
      intro call point there
      cases there
      exact GrpcCall.fresh_sound
  | unsubscribed here failed =>
      intro call point there
      cases there
  | refused here =>
      intro call point there
      cases there
      exact (sound _ _ here).of_idle trivial _
  | receiving here =>
      intro call point there
      cases there
      exact (sound _ _ here).receiving
  | timeout buffer here => exact sound
  | parked buffer here permitted other =>
      intro call point there
      cases there
      exact (sound _ _ here).park permitted other
  | found buffer here permitted =>
      exact sound_afterWait ((sound _ _ here).complete permitted) _ _
  | handled here message ingested =>
      intro call point there
      cases there
      exact (sound _ _ here).of_idle trivial _
  | passed calloc here other =>
      intro call point there
      cases there
      exact (sound _ _ here).of_idle trivial _

theorem start_sound (config : YureiConfig) : (start config : Client Buffer).Sound := by
  intro call point here
  cases here

theorem sound_run {actions : List (ClientAction Buffer)} (sound : client.Sound)
    (execution : Execution.run (step detector unpack) client actions = some next) : next.Sound :=
  Execution.run_invariant (fun _ _ _ => sound_step) sound execution

end Client

end YureiGeyser
