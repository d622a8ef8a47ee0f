import YureiGeyser.Completions
import YureiGeyser.StopLatency

/-!
# The client can always end

A wait of the client is for a batch that has not completed, or whose completion is parked.  A
stopped client that holds no message it cannot read is therefore never stuck: the server can end
the call, and the thread finds its way out.
-/

namespace YureiGeyser

variable {Buffer : Type}

/-- The completion of a batch is still to come, or it is parked. -/
def GrpcCall.Expects (call : GrpcCall Buffer) (tag : Tag) : Prop :=
  call.outstanding tag = true ∨ ∃ completion ∈ call.eventCache.parked, completion.tag = tag

/-- The status can still be waited for, and whatever is awaited can come. -/
structure GrpcCall.Answerable (call : GrpcCall Buffer) (point : CallPoint Buffer) : Prop where
  status : call.Expects .status
  awaited : ∀ tag, point.awaited = some tag → call.Expects tag

/-- Every wait of the client can be answered. -/
def Client.Answerable (client : Client Buffer) : Prop :=
  ∀ call point, client.thread = .attempt call point → call.Answerable point

namespace GrpcCall

variable {call : GrpcCall Buffer}

theorem Expects.complete {tag : Tag} (expects : call.Expects tag) {completion : Completion}
    (buffer : Option Buffer) (other : completion.tag ≠ tag) :
    (call.complete buffer (.opComplete completion)).Expects tag := by
  rcases expects with outstanding | parked
  · refine .inl ?_
    change Function.update call.outstanding completion.tag false tag = true
    rw [Function.update_of_ne other.symm]
    exact outstanding
  · exact .inr parked

theorem Expects.take {tag wanted : Tag} (expects : call.Expects tag) {completion : Completion}
    {cache : EventCache} (taken : cqCacheTake call.eventCache wanted = some (completion, cache))
    (other : wanted ≠ tag) : Expects { call with eventCache := cache } tag := by
  obtain ⟨same, items⟩ := cqCacheTake_eq_some taken
  rcases expects with outstanding | ⟨stored, member, awaited⟩
  · exact .inl outstanding
  · rcases List.mem_cons.mp (items.mem_iff.mp member) with rfl | rest
    · exact absurd (same.symm.trans awaited) other
    · exact .inr ⟨stored, rest, awaited⟩

/-- A parked completion can be found later. -/
theorem Expects.park {tag : Tag} (expects : call.Expects tag) {completion : Completion}
    (buffer : Option Buffer) (free : none ∈ call.eventCache.entries) :
    Expects { call.complete buffer (.opComplete completion) with
      eventCache := cqCacheStore call.eventCache completion } tag := by
  have stored := cqCacheStore_perm free completion
  by_cases same : completion.tag = tag
  · exact .inr ⟨completion, stored.mem_iff.mpr List.mem_cons_self, same⟩
  · rcases expects.complete buffer same with outstanding | ⟨other, member, awaited⟩
    · exact .inl outstanding
    · exact .inr ⟨other, stored.mem_iff.mpr (List.mem_cons_of_mem _ member), awaited⟩

/-- A point without a wait asks for the status only. -/
theorem Answerable.of_idle {point : CallPoint Buffer} (status : call.Expects .status)
    (idle : point.awaited = none) : call.Answerable point :=
  ⟨status, fun tag awaited => by rw [idle] at awaited; cases awaited⟩

theorem answerable_status (status : call.Expects .status) : call.Answerable (.take .status) :=
  ⟨status, fun tag awaited => by cases awaited; exact status⟩

end GrpcCall

namespace Client

variable {detector : ProtocolDetector} {unpack : Buffer → Option SubscribeUpdate}
  {client next : Client Buffer} {action : ClientAction Buffer}

theorem answerable_afterWait {call : GrpcCall Buffer} {tag : Tag} {success : Bool}
    (status : tag ≠ .status → call.Expects .status) :
    (client.afterWait call tag success).Answerable := by
  have resumed := resumes_afterWait client call tag success
  generalize client.afterWait call tag success = after at resumed ⊢
  intro later point here
  cases resumed with
  | established =>
      cases here
      exact .of_idle (status Tag.noConfusion) rfl
  | message received =>
      cases here
      exact .of_idle (status Tag.noConfusion) rfl
  | exhausted closed =>
      cases here
      exact GrpcCall.answerable_status (status Tag.noConfusion)
  | unestablished | rejected | reported => cases here

/-- A completion that is parked has a slot. -/
theorem answerable_step (answerable : client.Answerable)
    (room : ∀ call point, client.thread = .attempt call point → none ∈ call.eventCache.entries)
    (taken : client.step detector unpack action = some next) : next.Answerable := by
  cases steps_of_step taken with
  | stop => exact answerable
  | timeout => exact answerable
  | ends details here live =>
      intro call point there
      cases there
      have kept := answerable _ _ here
      exact ⟨kept.status, kept.awaited⟩
  | test here =>
      intro call point there
      change (if client.running then GeyserThread.subscribe else .finished) = _ at there
      split at there <;> cases there
  | cached here found =>
      exact answerable_afterWait fun other => (answerable _ _ here).status.take found other
  | uncached here =>
      intro call point there
      cases there
      exact ⟨(answerable _ _ here).status, (answerable _ _ here).awaited⟩
  | loop here =>
      intro call point there
      cases there
      cases client.running with
      | false => exact GrpcCall.answerable_status (answerable _ _ here).status
      | true => exact .of_idle (answerable _ _ here).status rfl
  | leave | sleep | unsubscribed =>
      intro call point there
      cases there
  | subscribed =>
      intro call point there
      cases there
      refine ⟨.inl rfl, fun tag awaited => ?_⟩
      cases awaited
      exact .inl rfl
  | refused here =>
      intro call point there
      cases there
      exact GrpcCall.answerable_status (answerable _ _ here).status
  | @receiving call here =>
      intro call point there
      cases there
      refine ⟨?_, fun tag awaited => ?_⟩
      · rcases (answerable _ _ here).status with outstanding | parked
        · exact .inl outstanding
        · exact .inr parked
      · cases awaited
        exact .inl rfl
  | parked buffer here =>
      intro call point there
      cases there
      have free := room _ _ here
      exact ⟨(answerable _ _ here).status.park buffer free,
        fun tag awaited => ((answerable _ _ here).awaited tag awaited).park buffer free⟩
  | found buffer here =>
      exact answerable_afterWait fun other => (answerable _ _ here).status.complete buffer other
  | handled here | passed calloc here =>
      intro call point there
      cases there
      exact .of_idle (answerable _ _ here).status rfl

/-- All completions of the call are accounted for. -/
def Tracked (client : Client Buffer) : Prop :=
  ∃ arrived yielded, Watched.Sound ⟨client, arrived, yielded⟩

theorem tracked_start (config : YureiConfig) : (start config : Client Buffer).Tracked :=
  ⟨[], [], Watched.start_sound config⟩

theorem tracked_step (tracked : client.Tracked)
    (taken : client.step detector unpack action = some next) : next.Tracked := by
  obtain ⟨arrived, yielded, sound⟩ := tracked
  have watched : ∃ after : Watched Buffer, after.client = next ∧
      Watched.step detector unpack ⟨client, arrived, yielded⟩ action = some after := by
    have any := stepAny_of_step taken
    refine ⟨_, ?_, Option.map_eq_some_iff.mpr ⟨next, any, rfl⟩⟩
    cases action <;> rfl
  obtain ⟨after, rfl, went⟩ := watched
  exact ⟨after.arrived, after.yielded, Watched.sound_step sound went⟩

/-- In every run of the client the completions are accounted for, and every wait can be answered. -/
theorem answerable_run {config : YureiConfig} {moves : List (ClientAction Buffer)}
    (execution : Execution.run (Client.step detector unpack) (Client.start config) moves =
      some client) : client.Tracked ∧ client.Answerable := by
  have stepwise : ∀ (before : Client Buffer) (action : ClientAction Buffer) (after : Client Buffer),
      before.Tracked ∧ before.Answerable → before.step detector unpack action = some after →
        after.Tracked ∧ after.Answerable := by
    rintro before action after ⟨tracked, answerable⟩ taken
    refine ⟨tracked_step tracked taken,
      answerable_step answerable (fun call point here => ?_) taken⟩
    obtain ⟨arrived, yielded, sound⟩ := tracked
    have few := (sound.tidy call point here).parked_length
    exact EventCache.free_of_parked (lt_of_le_of_lt few (by decide))
  refine Execution.run_invariant stepwise ⟨tracked_start config, ?_⟩ execution
  intro call point here
  cases here

/-- The message in hand, if there is one, can be handled. -/
def Readable (detector : ProtocolDetector) (unpack : Buffer → Option SubscribeUpdate)
    (client : Client Buffer) : Prop :=
  ∀ call buffer update, client.thread = .attempt call (.handle buffer) →
    unpack buffer = some (.transaction update) →
      ∃ events, handleTransaction detector true update = .ok events

/-- What lies ahead of a stopped client: its distance, and the end of its call. -/
def ahead (client : Client Buffer) : ℕ :=
  2 * client.thread.distance +
    match client.thread with
    | .attempt call _ => (!call.ended.isSome).toNat
    | _ => 0

theorem ahead_lt (stopped : client.running = false)
    (taken : client.step detector unpack action = some next) (works : action.works = true) :
    next.ahead < client.ahead := by
  obtain ⟨events, dispatched, -⟩ := dispatched_of_step taken
  have nearer := distance_of_step stopped taken
  rw [works, Bool.toNat_true, dispatched, List.length_append] at nearer
  have open_le : (match next.thread with
      | .attempt call _ => (!call.ended.isSome).toNat
      | _ => 0) ≤ 1 := by
    split
    · exact Bool.toNat_le _
    · exact Nat.zero_le 1
  rw [ahead, ahead]
  omega

/-- Only a receive batch that succeeds brings a message. -/
theorem empty_afterWait (client : Client Buffer) (call : GrpcCall Buffer) {tag : Tag}
    {success : Bool} (quiet : tag = .receive → success = false) (later : GrpcCall Buffer)
    (buffer : Buffer) :
    (client.afterWait call tag success).thread ≠ .attempt later (.handle buffer) := by
  have resumed := resumes_afterWait client call tag success
  generalize client.afterWait call tag success = after at resumed ⊢
  intro here
  cases resumed with
  | message received => cases quiet rfl
  | _ => cases here

/-- Some step brings the client nearer to its end and leaves it without a message. -/
def Approaches (detector : ProtocolDetector) (unpack : Buffer → Option SubscribeUpdate)
    (client : Client Buffer) : Prop :=
  ∃ action next, action.stops = false ∧ client.step detector unpack action = some next ∧
    next.ahead < client.ahead ∧ next.Readable detector unpack

theorem approaches_of_works (stopped : client.running = false) (other : action.stops = false)
    (works : action.works = true) (taken : client.step detector unpack action = some next)
    (empty : ∀ call buffer, next.thread ≠ .attempt call (.handle buffer)) :
    client.Approaches detector unpack :=
  ⟨action, next, other, taken, ahead_lt stopped taken works,
    fun call buffer _ here => absurd here (empty call buffer)⟩

/-- Every batch but that of the status may fail; the status comes once the server has ended the
call. -/
theorem approaches_next (stopped : client.running = false) {call : GrpcCall Buffer} {tag : Tag}
    (here : client.thread = .attempt call (.next tag)) (outstanding : call.outstanding tag = true) :
    client.Approaches detector unpack := by
  by_cases reports : tag = .status
  · subst reports
    cases ended : call.ended with
    | none =>
        refine ⟨.serverEnds [],
          { client with thread := .attempt { call with ended := some [] } (.next .status) },
          rfl, ?_, ?_, fun call buffer update there => by cases there⟩
        · simp only [step, here, ended]
          rfl
        · simp [ahead, here, ended, GeyserThread.distance, GrpcCall.load]
    | some details =>
        have taken : client.step detector unpack (.next (.opComplete ⟨.status, true⟩) none) =
            some (client.afterWait (call.complete none (.opComplete ⟨.status, true⟩)) .status
              true) := by
          simp only [step, deliver, here, GrpcCall.Permits, outstanding, ended]
          rfl
        exact approaches_of_works stopped rfl rfl taken
          (client.empty_afterWait _ fun same => by cases same)
  · have taken : client.step detector unpack (.next (.opComplete ⟨tag, false⟩) none) =
        some (client.afterWait (call.complete none (.opComplete ⟨tag, false⟩)) tag false) := by
      simp only [step, deliver, here, GrpcCall.Permits, outstanding, cqWaitForTag]
      simp [reports]
    exact approaches_of_works stopped rfl rfl taken (client.empty_afterWait _ fun _ => rfl)

/-- A message that can be handled is. -/
theorem approaches_handle (stopped : client.running = false)
    (readable : client.Readable detector unpack) {call : GrpcCall Buffer} {buffer : Buffer}
    (here : client.thread = .attempt call (.handle buffer)) :
    client.Approaches detector unpack := by
  have handled : ∃ events, client.step detector unpack (.handle true) =
      some { client with
        thread := .attempt call .loop
        dispatched := client.dispatched ++ events } := by
    simp only [step, here]
    split
    · next update message =>
        obtain ⟨events, ingested⟩ := readable call buffer update here message
        exact ⟨events, by rw [ingested]⟩
    · exact ⟨[], by rw [List.append_nil]⟩
  obtain ⟨events, taken⟩ := handled
  exact approaches_of_works stopped rfl rfl taken fun _ _ there => by cases there

/-- A parked completion is that of the status, so a look into the table never brings a message. -/
theorem approaches_take (stopped : client.running = false) {call : GrpcCall Buffer} {tag : Tag}
    (here : client.thread = .attempt call (.take tag)) {arrived : List Completion}
    {yielded : List (Tag × Completion)} (tidy : call.Tidy (.take tag) arrived yielded) :
    client.Approaches detector unpack := by
  cases found : cqCacheTake call.eventCache tag with
  | none =>
      have taken : client.step detector unpack .advance =
          some { client with thread := .attempt call (.next tag) } := by
        simp only [step, advance, here, found]
      exact approaches_of_works stopped rfl rfl taken fun _ _ there => by cases there
  | some result =>
      obtain ⟨completion, cache⟩ := result
      obtain ⟨same, items⟩ := cqCacheTake_eq_some found
      have reports := tidy.parked_status completion (items.mem_iff.mpr List.mem_cons_self)
      rw [same] at reports
      have taken : client.step detector unpack .advance =
          some (client.afterWait { call with eventCache := cache } tag completion.success) := by
        simp only [step, advance, here, found]
      refine approaches_of_works stopped rfl rfl taken (client.empty_afterWait _ ?_)
      rw [reports]
      intro same
      cases same

/-- A stopped client that has not finished gets nearer to its end. -/
theorem approaches (stopped : client.running = false) (unfinished : client.thread ≠ .finished)
    (tracked : client.Tracked) (answerable : client.Answerable)
    (readable : client.Readable detector unpack) : client.Approaches detector unpack := by
  obtain ⟨arrived, yielded, sound⟩ := tracked
  cases here : client.thread with
  | finished => exact absurd here unfinished
  | test =>
      have taken : client.step detector unpack .advance =
          some { client with thread := .finished } := by
        simp only [step, advance, here, stopped]
        rfl
      exact approaches_of_works stopped rfl rfl taken fun _ _ there => by cases there
  | subscribe =>
      have taken : client.step detector unpack (.subscribe ⟨true, true, true⟩ false) =
          some { client with thread := .returned false } := by
        simp only [step, here]
        split <;> rfl
      exact approaches_of_works stopped rfl rfl taken fun _ _ there => by cases there
  | returned ok =>
      have taken : client.step detector unpack .advance =
          some { client with thread := .finished } := by
        simp only [step, advance, here, stopped]
        rfl
      exact approaches_of_works stopped rfl rfl taken fun _ _ there => by cases there
  | attempt call point =>
      have tidy : call.Tidy point arrived yielded := sound.tidy call point here
      cases point with
      | take tag => exact approaches_take stopped here tidy
      | next tag =>
          refine approaches_next stopped here ?_
          rcases (answerable call _ here).awaited tag rfl with outstanding | ⟨parked, member, same⟩
          · exact outstanding
          · exact absurd same (tidy.looked tag rfl parked member)
      | loop =>
          have taken : client.step detector unpack .advance =
              some { client with thread := .attempt call (.take .status) } := by
            simp only [step, advance, here, stopped]
            rfl
          exact approaches_of_works stopped rfl rfl taken fun _ _ there => by cases there
      | receive =>
          have taken : client.step detector unpack (.startReceive false) =
              some { client with thread := .attempt call (.take .status) } := by
            simp only [step, here]
            rfl
          exact approaches_of_works stopped rfl rfl taken fun _ _ there => by cases there
      | handle buffer => exact approaches_handle stopped readable here

end Client

end YureiGeyser
