import YureiGeyser.Subscription

/-!
# The completions of a call

What the completion queue returns for the batches of a call, and what the calls of `cq_wait_for_tag`
make of it.  Nothing is assumed about the order of the completions or about their success: a batch
that was started completes once, at any time.
-/

namespace YureiGeyser

variable {Buffer : Type}

/-- The completion queue returns the completion of a batch that was started, or it times out. -/
def GrpcCall.Returns (call : GrpcCall Buffer) : QueueEvent → Bool
  | .shutdown => false
  | .timeout => true
  | .opComplete completion => call.outstanding completion.tag

namespace Client

/-- The rest of `cq_wait_for_tag` after an event. -/
def arrive (client : Client Buffer) (call : GrpcCall Buffer) (tag : Tag) (event : QueueEvent)
    (buffer : Option Buffer) : Client Buffer :=
  let call := call.complete buffer event
  match cqWaitForTag tag call.eventCache event with
  | .again eventCache => { client with thread := .attempt { call with eventCache } (.next tag) }
  | .found completion => client.afterWait call tag completion.success
  | .failed => client.afterWait call tag false

/-- A step of the client on any completion queue. -/
def stepAny (detector : ProtocolDetector) (unpack : Buffer → Option SubscribeUpdate)
    (client : Client Buffer) : ClientAction Buffer → Option (Client Buffer)
  | .next event buffer =>
      match client.thread with
      | .attempt call (.next tag) =>
          if call.Returns event then some (client.arrive call tag event buffer) else none
      | _ => none
  | action => client.step detector unpack action

/-- The completion that a call of `cq_wait_for_tag` yields in a step, with the awaited tag. -/
def yields (client : Client Buffer) : ClientAction Buffer → Option (Tag × Completion)
  | .advance =>
      match client.thread with
      | .attempt call (.take tag) =>
          (cqCacheTake call.eventCache tag).map fun (completion, _) => (tag, completion)
      | _ => none
  | .next event _ =>
      match client.thread with
      | .attempt call (.next tag) =>
          match cqWaitForTag tag call.eventCache event with
          | .found completion => some (tag, completion)
          | _ => none
      | _ => none
  | _ => none

end Client

/-- The completion that the completion queue returns in a step. -/
def ClientAction.arrival : ClientAction Buffer → Option Completion
  | .next (.opComplete completion) _ => some completion
  | _ => none

/-- A client and what has happened to the completions of its last call. -/
structure Watched (Buffer : Type) where
  client : Client Buffer
  /-- The completions that the queue has returned. -/
  arrived : List Completion
  /-- The completions that the waits have yielded, with the awaited tags. -/
  yielded : List (Tag × Completion)

namespace Watched

/-- The client before its first call. -/
def start (config : YureiConfig) : Watched Buffer where
  client := Client.start config
  arrived := []
  yielded := []

/-- A step of the client; a new call has a queue of its own. -/
def step (detector : ProtocolDetector) (unpack : Buffer → Option SubscribeUpdate)
    (watched : Watched Buffer) (action : ClientAction Buffer) : Option (Watched Buffer) :=
  (watched.client.stepAny detector unpack action).map fun client =>
    match action with
    | .subscribe _ _ => { client, arrived := [], yielded := [] }
    | _ =>
        { client
          arrived := watched.arrived ++ action.arrival.toList
          yielded := watched.yielded ++ (watched.client.yields action).toList }

end Watched

namespace Client

variable {detector : ProtocolDetector} {unpack : Buffer → Option SubscribeUpdate}
  {client next : Client Buffer}

/-- A queue that keeps the promises of gRPC is one of those. -/
theorem stepAny_of_step {action : ClientAction Buffer}
    (taken : client.step detector unpack action = some next) :
    client.stepAny detector unpack action = some next := by
  cases action with
  | next event buffer =>
      rw [step, deliver] at taken
      split at taken
      · next call tag here =>
          split at taken
          · next permitted =>
              have returned : call.Returns event = true := by
                cases event with
                | shutdown => exact permitted
                | timeout => rfl
                | opComplete completion =>
                    rw [GrpcCall.Permits, Bool.and_eq_true] at permitted
                    exact permitted.1
              have delivered : client.stepAny detector unpack (.next event buffer) =
                  some (client.arrive call tag event buffer) := by
                simp only [stepAny, here, returned, if_true]
              rw [delivered, ← taken, arrive]
              dsimp only
              cases cqWaitForTag tag (call.complete buffer event).eventCache event <;> rfl
          · cases taken
      · cases taken
  | _ => exact taken

/-- The queue apart, the steps are those of the client. -/
theorem steps_of_stepAny {action : ClientAction Buffer}
    (taken : client.stepAny detector unpack action = some next)
    (unasked : ∀ event buffer, action ≠ .next event buffer) :
    Steps detector unpack client action next := by
  cases action with
  | next event buffer => exact absurd rfl (unasked event buffer)
  | _ => exact steps_of_step taken

/-- What an event of the completion queue can do. -/
inductive Arrives (client : Client Buffer) (buffer : Option Buffer) :
    QueueEvent → Client Buffer → Prop
  | timeout {call : GrpcCall Buffer} {tag : Tag}
      (here : client.thread = .attempt call (.next tag)) : Arrives client buffer .timeout client
  | parked {call : GrpcCall Buffer} {tag : Tag} {completion : Completion}
      (here : client.thread = .attempt call (.next tag))
      (outstanding : call.outstanding completion.tag = true) (other : completion.tag ≠ tag) :
      Arrives client buffer (.opComplete completion)
        { client with
          thread := .attempt { call.complete buffer (.opComplete completion) with
            eventCache := cqCacheStore call.eventCache completion } (.next tag) }
  | found {call : GrpcCall Buffer} {completion : Completion}
      (here : client.thread = .attempt call (.next completion.tag))
      (outstanding : call.outstanding completion.tag = true) :
      Arrives client buffer (.opComplete completion)
        (client.afterWait (call.complete buffer (.opComplete completion)) completion.tag
          completion.success)

theorem arrives_of_stepAny {event : QueueEvent} {buffer : Option Buffer}
    (taken : client.stepAny detector unpack (.next event buffer) = some next) :
    Arrives client buffer event next := by
  rw [stepAny] at taken
  split at taken
  · next call tag here =>
      split at taken
      · next returned =>
          cases taken
          cases event with
          | shutdown => cases returned
          | timeout =>
              have same : client.arrive call tag .timeout buffer = client := by
                change { client with thread := .attempt call (.next tag) } = client
                rw [← here]
              rw [same]
              exact .timeout here
          | opComplete completion =>
              by_cases awaited : completion.tag = tag
              · subst awaited
                simp only [arrive, cqWaitForTag, if_true]
                exact .found here returned
              · simp only [arrive, cqWaitForTag, if_neg awaited]
                exact .parked here returned awaited
      · cases taken
  · cases taken

end Client

/-! ## Tidy calls -/

/-- The tag that a call of `cq_wait_for_tag` awaits. -/
def CallPoint.awaited : CallPoint Buffer → Option Tag
  | .take tag => some tag
  | .next tag => some tag
  | _ => none

/-- Nothing but the status is ever parked, and all that has arrived is yielded or parked. -/
structure GrpcCall.Tidy (call : GrpcCall Buffer) (point : CallPoint Buffer)
    (arrived : List Completion) (yielded : List (Tag × Completion)) : Prop where
  /-- Only the status batch may complete while another one is awaited. -/
  awaited : ∀ tag, call.outstanding tag = true → tag = .status ∨ point.awaited = some tag
  parked_status : ∀ completion ∈ call.eventCache.parked, completion.tag = .status
  parked_length : call.eventCache.parked.length ≤ 1
  /-- The status is parked once it has completed, not before. -/
  parked_nil : call.outstanding .status = true → call.eventCache.parked = []
  /-- The queue is asked only for a tag that is not parked. -/
  looked : ∀ tag, point = .next tag → ∀ completion ∈ call.eventCache.parked, completion.tag ≠ tag
  kept : arrived.Perm (yielded.map Prod.snd ++ call.eventCache.parked)

namespace GrpcCall

variable {call : GrpcCall Buffer} {point : CallPoint Buffer} {arrived : List Completion}
  {yielded : List (Tag × Completion)}

theorem fresh_tidy : (fresh : GrpcCall Buffer).Tidy (.take .handshake) [] [] where
  awaited tag outstanding := by
    cases tag with
    | handshake => exact .inr rfl
    | status => exact .inl rfl
    | receive => cases outstanding
  parked_status completion member := by cases member
  parked_length := Nat.zero_le 1
  parked_nil _ := rfl
  looked tag _ completion member := by cases member
  kept := .refl []

/-- What is yielded has arrived, and it is yielded once. -/
theorem Tidy.once (tidy : call.Tidy point arrived yielded) :
    (yielded.map Prod.snd).Subperm arrived :=
  (List.sublist_append_left _ _).subperm.trans tidy.kept.symm.subperm

/-- The server ends the call. -/
theorem Tidy.of_ended {details : List UInt8} (tidy : call.Tidy point arrived yielded) :
    Tidy { call with ended := some details } point arrived yielded :=
  ⟨tidy.awaited, tidy.parked_status, tidy.parked_length, tidy.parked_nil, tidy.looked, tidy.kept⟩

/-- Nothing happens to the completions on the way from a point without a wait to another one. -/
theorem Tidy.of_idle (tidy : call.Tidy point arrived yielded) (idle : point.awaited = none)
    {later : CallPoint Buffer} (unasked : ∀ tag, later ≠ .next tag) :
    call.Tidy later arrived yielded where
  awaited tag outstanding := by
    rcases tidy.awaited tag outstanding with status | awaited
    · exact .inl status
    · rw [idle] at awaited
      cases awaited
  parked_status := tidy.parked_status
  parked_length := tidy.parked_length
  parked_nil := tidy.parked_nil
  looked tag here := absurd here (unasked tag)
  kept := tidy.kept

theorem Tidy.receiving (tidy : call.Tidy .receive arrived yielded) :
    call.receiving.Tidy (.take .receive) arrived yielded where
  awaited tag outstanding := by
    cases tag with
    | status => exact .inl rfl
    | receive => exact .inr rfl
    | handshake =>
        rcases tidy.awaited .handshake outstanding with status | awaited
        · cases status
        · cases awaited
  parked_status := tidy.parked_status
  parked_length := tidy.parked_length
  parked_nil := tidy.parked_nil
  looked tag here := by cases here
  kept := tidy.kept

theorem Tidy.uncached {tag : Tag} (tidy : call.Tidy (.take tag) arrived yielded)
    (nothing : cqCacheTake call.eventCache tag = none) :
    call.Tidy (.next tag) arrived yielded where
  awaited := tidy.awaited
  parked_status := tidy.parked_status
  parked_length := tidy.parked_length
  parked_nil := tidy.parked_nil
  looked later here := by
    cases here
    exact cqCacheTake_eq_none nothing
  kept := tidy.kept

/-- A parked completion is yielded, and nothing else is parked. -/
theorem Tidy.cached {tag : Tag} {completion : Completion} {cache : EventCache}
    (tidy : call.Tidy (.take tag) arrived yielded)
    (taken : cqCacheTake call.eventCache tag = some (completion, cache))
    (unasked : ∀ later, point ≠ .next later) :
    Tidy { call with eventCache := cache } point arrived (yielded ++ [(tag, completion)]) := by
  obtain ⟨same, items⟩ := cqCacheTake_eq_some taken
  have length := items.length_eq
  have few := tidy.parked_length
  rw [List.length_cons] at length
  have empty : cache.parked = [] := List.length_eq_zero_iff.mp (by omega)
  have status : tag = .status :=
    same.symm.trans (tidy.parked_status completion (items.mem_iff.mpr List.mem_cons_self))
  refine ⟨?_, ?_, ?_, fun _ => empty, fun later here => absurd here (unasked later), ?_⟩
  · intro later outstanding
    rcases tidy.awaited later outstanding with known | awaited
    · exact .inl known
    · exact .inl ((Option.some.inj awaited).symm.trans status)
  · rw [empty]
    intro other member
    cases member
  · rw [empty]
    exact Nat.zero_le 1
  · have kept := tidy.kept.trans (items.append_left _)
    rw [empty] at kept ⊢
    simpa using kept

/-- The awaited completion is yielded without being parked. -/
theorem Tidy.found {completion : Completion} {buffer : Option Buffer}
    (tidy : call.Tidy (.next completion.tag) arrived yielded)
    (unasked : ∀ later, point ≠ .next later) :
    (call.complete buffer (.opComplete completion)).Tidy point (arrived ++ [completion])
      (yielded ++ [(completion.tag, completion)]) where
  awaited tag outstanding := by
    change Function.update call.outstanding completion.tag false tag = true at outstanding
    by_cases same : tag = completion.tag
    · rw [same, Function.update_self] at outstanding
      cases outstanding
    · rw [Function.update_of_ne same] at outstanding
      rcases tidy.awaited tag outstanding with status | awaited
      · exact .inl status
      · exact absurd (Option.some.inj awaited).symm same
  parked_status := tidy.parked_status
  parked_length := tidy.parked_length
  parked_nil outstanding := by
    change Function.update call.outstanding completion.tag false .status = true at outstanding
    by_cases same : Tag.status = completion.tag
    · rw [← same, Function.update_self] at outstanding
      cases outstanding
    · rw [Function.update_of_ne same] at outstanding
      exact tidy.parked_nil outstanding
  looked later here := absurd here (unasked later)
  kept := by
    have both := tidy.kept.append_right [completion]
    rw [List.append_assoc] at both
    rw [List.map_append, List.append_assoc]
    exact both.trans (List.perm_append_comm.append_left _)

/-- A completion that is not awaited is that of the status, and there is a free slot for it. -/
theorem Tidy.park {completion : Completion} {buffer : Option Buffer} {tag : Tag}
    (tidy : call.Tidy (.next tag) arrived yielded)
    (outstanding : call.outstanding completion.tag = true) (other : completion.tag ≠ tag) :
    Tidy { call.complete buffer (.opComplete completion) with
      eventCache := cqCacheStore call.eventCache completion } (.next tag)
      (arrived ++ [completion]) yielded := by
  have status : completion.tag = .status := by
    rcases tidy.awaited _ outstanding with status | awaited
    · exact status
    · exact absurd (Option.some.inj awaited).symm other
  rw [status] at outstanding
  have nothing := tidy.parked_nil outstanding
  have free : none ∈ call.eventCache.entries := by
    apply EventCache.free_of_parked
    rw [nothing]
    decide
  have stored := cqCacheStore_perm free completion
  rw [nothing] at stored
  have single := List.perm_singleton.mp stored
  refine ⟨?_, ?_, ?_, ?_, ?_, ?_⟩
  · intro later remaining
    change Function.update call.outstanding completion.tag false later = true at remaining
    by_cases same : later = completion.tag
    · exact .inl (same.trans status)
    · rw [Function.update_of_ne same] at remaining
      exact tidy.awaited later remaining
  · intro parked member
    rw [single] at member
    rw [List.mem_singleton.mp member, status]
  · rw [single]
    exact le_rfl
  · intro remaining
    change Function.update call.outstanding completion.tag false .status = true at remaining
    rw [status, Function.update_self] at remaining
    cases remaining
  · rintro later here parked member
    cases here
    rw [single] at member
    rw [List.mem_singleton.mp member]
    exact other
  · have kept := tidy.kept
    rw [nothing, List.append_nil] at kept
    rw [single]
    exact kept.append_right [completion]

end GrpcCall

/-! ## Runs -/

namespace Watched

/-- What is invariant. -/
structure Sound (watched : Watched Buffer) : Prop where
  /-- A wait yields a completion of its own tag. -/
  matched : ∀ wait ∈ watched.yielded, wait.2.tag = wait.1
  /-- A completion is yielded at most once. -/
  once : (watched.yielded.map Prod.snd).Subperm watched.arrived
  tidy : ∀ call point, watched.client.thread = .attempt call point →
    call.Tidy point watched.arrived watched.yielded

variable {detector : ProtocolDetector} {unpack : Buffer → Option SubscribeUpdate}
  {watched next : Watched Buffer}

theorem start_sound (config : YureiConfig) : (start config : Watched Buffer).Sound where
  matched wait member := by cases member
  once := .refl _
  tidy call point here := by cases here

/-- A step without a completion. -/
theorem Sound.quiet (sound : watched.Sound) {client : Client Buffer}
    (tidy : ∀ call point, client.thread = .attempt call point →
      call.Tidy point watched.arrived watched.yielded) :
    Sound { client, arrived := watched.arrived ++ [], yielded := watched.yielded ++ [] } where
  matched := by
    dsimp only
    rw [List.append_nil]
    exact sound.matched
  once := by
    rw [List.append_nil, List.append_nil]
    exact sound.once
  tidy := by
    rw [List.append_nil, List.append_nil]
    exact tidy

/-- A step in which a wait yields a completion. -/
theorem Sound.resumed (sound : watched.Sound) {client : Client Buffer} {call : GrpcCall Buffer}
    {tag : Tag} {completion : Completion} {arrived : List Completion} (same : completion.tag = tag)
    (tidy : ∀ point : CallPoint Buffer, (∀ later, point ≠ .next later) →
      call.Tidy point arrived (watched.yielded ++ [(tag, completion)])) :
    Sound
      { client := client.afterWait call tag completion.success
        arrived
        yielded := watched.yielded ++ [(tag, completion)] } where
  matched wait member := by
    rcases List.mem_append.mp member with earlier | last
    · exact sound.matched wait earlier
    · rw [List.mem_singleton.mp last]
      exact same
  once := (tidy .loop fun later asks => by cases asks).once
  tidy later point here := by
    obtain ⟨rfl, unasked⟩ := Client.attempt_afterWait here
    exact tidy point unasked

theorem sound_advance (sound : watched.Sound) {client : Client Buffer}
    (moved : Client.Steps detector unpack watched.client .advance client) :
    Sound
      { client
        arrived := watched.arrived ++ []
        yielded := watched.yielded ++ (watched.client.yields .advance).toList } := by
  cases moved with
  | cached here found =>
      have tidy := sound.tidy _ _ here
      simp only [Client.yields, here, found, Option.map_some, Option.toList_some, List.append_nil]
      exact sound.resumed (cqCacheTake_eq_some found).1 fun point => tidy.cached found
  | uncached here nothing =>
      have tidy := (sound.tidy _ _ here).uncached nothing
      simp only [Client.yields, here, nothing, Option.map_none]
      refine sound.quiet fun call point there => ?_
      cases there
      exact tidy
  | test here =>
      simp only [Client.yields, here]
      refine sound.quiet fun call point there => ?_
      dsimp only at there
      split at there <;> cases there
  | loop here =>
      simp only [Client.yields, here]
      refine sound.quiet fun call point there => ?_
      cases there
      refine (sound.tidy _ _ here).of_idle rfl fun tag asks => ?_
      split at asks <;> cases asks
  | leave here stopped =>
      simp only [Client.yields, here]
      exact sound.quiet fun call point there => by cases there
  | sleep here running =>
      simp only [Client.yields, here]
      exact sound.quiet fun call point there => by cases there

theorem sound_next (sound : watched.Sound) {client : Client Buffer} {event : QueueEvent}
    {buffer : Option Buffer} (moved : watched.client.Arrives buffer event client) :
    Sound
      { client
        arrived := watched.arrived ++ (ClientAction.next event buffer).arrival.toList
        yielded := watched.yielded ++ (watched.client.yields (.next event buffer)).toList } := by
  cases moved with
  | timeout here =>
      simp only [Client.yields, here, cqWaitForTag]
      exact sound.quiet sound.tidy
  | @parked call tag completion here outstanding other =>
      have tidy := sound.tidy _ _ here
      have kept := sound.once.trans (List.sublist_append_left watched.arrived [completion]).subperm
      simp only [Client.yields, here, cqWaitForTag, if_neg other]
      simp only [ClientAction.arrival, Option.toList_some, Option.toList_none, List.append_nil]
      refine ⟨sound.matched, kept, fun call point there => ?_⟩
      cases there
      exact tidy.park outstanding other
  | found here outstanding =>
      have tidy := sound.tidy _ _ here
      simp only [Client.yields, here, cqWaitForTag, if_true]
      exact sound.resumed rfl fun point => tidy.found

/-- Every step keeps the invariant. -/
theorem sound_step {action : ClientAction Buffer} (sound : watched.Sound)
    (taken : watched.step detector unpack action = some next) : next.Sound := by
  obtain ⟨client, moved, rfl⟩ := Option.map_eq_some_iff.mp taken
  cases action with
  | next event buffer => exact sound_next sound (Client.arrives_of_stepAny moved)
  | advance =>
      have steps := Client.steps_of_stepAny moved fun event buffer asks => by cases asks
      exact sound_advance sound steps
  | subscribe memory started =>
      have steps := Client.steps_of_stepAny moved fun event buffer asks => by cases asks
      refine ⟨fun wait member => ?_, .refl _, fun call point there => ?_⟩
      · cases member
      · cases steps with
        | subscribed here built =>
            cases there
            exact GrpcCall.fresh_tidy
        | unsubscribed here failed => cases there
  | stop =>
      have steps := Client.steps_of_stepAny moved fun event buffer asks => by cases asks
      refine sound.quiet fun call point there => ?_
      cases steps with
      | stop => exact sound.tidy call point there
  | serverEnds details =>
      have steps := Client.steps_of_stepAny moved fun event buffer asks => by cases asks
      refine sound.quiet fun call point there => ?_
      cases steps with
      | ends details here live =>
          cases there
          exact (sound.tidy _ _ here).of_ended
  | startReceive started =>
      have steps := Client.steps_of_stepAny moved fun event buffer asks => by cases asks
      refine sound.quiet fun call point there => ?_
      cases steps with
      | refused here =>
          cases there
          exact (sound.tidy _ _ here).of_idle rfl fun tag asks => by cases asks
      | receiving here =>
          cases there
          exact (sound.tidy _ _ here).receiving
  | handle calloc =>
      have steps := Client.steps_of_stepAny moved fun event buffer asks => by cases asks
      refine sound.quiet fun call point there => ?_
      cases steps with
      | handled here message ingested =>
          cases there
          exact (sound.tidy _ _ here).of_idle rfl fun tag asks => by cases asks
      | passed calloc here other =>
          cases there
          exact (sound.tidy _ _ here).of_idle rfl fun tag asks => by cases asks

/-- What a wait for the tag of a parked completion yields. -/
theorem Sound.yields_parked (sound : watched.Sound) {call : GrpcCall Buffer}
    {completion : Completion}
    (here : watched.client.thread = .attempt call (.take completion.tag))
    (parked : completion ∈ call.eventCache.parked) :
    watched.client.yields .advance = some (completion.tag, completion) := by
  have tidy := sound.tidy _ _ here
  have few := tidy.parked_length
  simp only [Client.yields, here]
  cases taken : cqCacheTake call.eventCache completion.tag with
  | none => exact absurd rfl (cqCacheTake_eq_none taken completion parked)
  | some result =>
      obtain ⟨found, cache⟩ := result
      obtain ⟨-, items⟩ := cqCacheTake_eq_some taken
      have length := items.length_eq
      rw [List.length_cons] at length
      have empty : cache.parked = [] := List.length_eq_zero_iff.mp (by omega)
      rw [empty] at items
      have only : completion = found := List.mem_singleton.mp (items.mem_iff.mp parked)
      rw [only]
      rfl

/-- In every run, whatever the queue returns and when, a wait yields a completion of its own tag
and no completion is yielded twice.  During a call what has arrived is yielded or parked, there is
a free slot, and a parked completion is what the next wait for its tag yields. -/
theorem completions_delivered (detector : ProtocolDetector)
    (unpack : Buffer → Option SubscribeUpdate) (config : YureiConfig)
    {actions : List (ClientAction Buffer)}
    (execution : Execution.run (step detector unpack) (start config) actions = some watched) :
    (∀ wait ∈ watched.yielded, wait.2.tag = wait.1) ∧
      (watched.yielded.map Prod.snd).Subperm watched.arrived ∧
        ∀ call point, watched.client.thread = .attempt call point →
          watched.arrived.Perm (watched.yielded.map Prod.snd ++ call.eventCache.parked) ∧
            none ∈ call.eventCache.entries ∧
              ∀ completion ∈ call.eventCache.parked, point = .take completion.tag →
                watched.client.yields .advance = some (completion.tag, completion) := by
  have preserved : ∀ watched action next, (watched : Watched Buffer).Sound →
      watched.step detector unpack action = some next → next.Sound :=
    fun watched action next => sound_step
  have sound := Execution.run_invariant preserved (start_sound config) execution
  refine ⟨sound.matched, sound.once, fun call point here => ?_⟩
  have tidy := sound.tidy call point here
  refine ⟨tidy.kept, ?_, fun completion parked waits => ?_⟩
  · exact EventCache.free_of_parked (tidy.parked_length.trans_lt (by decide))
  · subst waits
    exact sound.yields_parked here parked

/-- A client that ignores its messages. -/
def ignoringStep : Watched Unit → ClientAction Unit → Option (Watched Unit) :=
  step (protocolDetectorInit countingKey false countingKey false) fun _ => some .other

/-- The status comes during the handshake, and the first message is missing. -/
def earlyStatus : List (ClientAction Unit) :=
  [.advance, .subscribe ⟨true, true, true⟩ true, .advance, .next .timeout none,
    .next (.opComplete ⟨.status, true⟩) none, .next (.opComplete ⟨.handshake, true⟩) none,
    .advance, .startReceive true, .advance, .next (.opComplete ⟨.receive, true⟩) none]

/-- The early status is yielded to the wait for it. -/
theorem completions_delivered_early_status :
    ∃ watched call, Execution.run ignoringStep (start ⟨false, 0⟩) earlyStatus = some watched ∧
      watched.client.thread = .attempt call (.take .status) ∧
        watched.client.yields .advance = some (.status, ⟨.status, true⟩) := by
  have reached : ∃ watched call,
      Execution.run ignoringStep (start ⟨false, 0⟩) earlyStatus = some watched ∧
        watched.client.thread = .attempt call (.take .status) ∧
          ⟨.status, true⟩ ∈ call.eventCache.parked :=
    ⟨_, _, rfl, rfl, List.mem_cons_self⟩
  obtain ⟨watched, call, execution, waits, parked⟩ := reached
  have delivered := (completions_delivered _ _ _ execution).2.2 call _ waits
  exact ⟨watched, call, execution, waits, delivered.2.2 _ parked rfl⟩

end Watched

end YureiGeyser
