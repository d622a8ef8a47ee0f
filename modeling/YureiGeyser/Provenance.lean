import YureiGeyser.Ingest
import YureiGeyser.Committed
import YureiGeyser.ProcessObjects

/-!
# Where the events come from

The client thread dispatches what the handler reads off a message, and the message is one that gRPC
has handed over.
-/

namespace YureiGeyser

variable {Buffer : Type}

/-! ## What the client dispatches -/

/-- An event that a transaction leads to: a trade, read off one of its log lines. -/
def Ingested (detector : ProtocolDetector) (update : SubscribeUpdateTransaction) (event : Event) :
    Prop :=
  update.protocol detector = .pumpfun ∧
    ∃ calloc lines line decoded trade, update.logMessages = some lines ∧ line ∈ lines ∧
      decodeProgramDataLine line 768 = .ok (some decoded) ∧
        pumpfunParseTrade decoded = some trade ∧
          event = makeEvent calloc update
            (.pumpfunTrade { trade with slot := update.slotOrZero })

/-- What the encoder writes is over the alphabet. -/
theorem overAlphabet_of_base58Encode {calloc : Bool} {input : List UInt8} {outLen : ℕ}
    {text : CString} (encoded : Base58.base58Encode calloc input outLen = some text) :
    Base58.OverAlphabet text.bytes := by
  cases calloc with
  | false => cases encoded
  | true =>
      rw [Base58.base58Encode_eq] at encoded
      split at encoded
      · cases encoded
        exact Base58.overAlphabet_base58Text _ (Positional.minimal_lt (by norm_num))
      · cases encoded

/-- The signature of an event is empty, or it is the text of the signature of the transaction. -/
theorem signature_makeEvent (calloc : Bool) (update : SubscribeUpdateTransaction)
    (data : EventData) :
    (makeEvent calloc update data).signature = CString.empty ∨ ∃ bytes,
      update.signature = some bytes ∧
        Base58.base58Encode calloc bytes maxSignatureLen =
          some (makeEvent calloc update data).signature := by
  rw [makeEvent]
  split
  · next bytes transaction statusMeta info =>
      split
      · split
        · next text encoded =>
            refine .inr ⟨bytes, ?_, encoded⟩
            rw [SubscribeUpdateTransaction.signature, info]
            rfl
        · exact .inl rfl
      · exact .inl rfl
  · exact .inl rfl

theorem makeEvent_signed {calloc : Bool} {update : SubscribeUpdateTransaction} (data : EventData) :
    (makeEvent calloc update data).Signed := by
  rw [Event.Signed]
  rcases signature_makeEvent calloc update data with empty | ⟨bytes, -, encoded⟩
  · rw [empty]
    exact nofun
  · exact overAlphabet_of_base58Encode encoded

theorem ingested_of_mem {detector : ProtocolDetector} {calloc : Bool}
    {update : SubscribeUpdateTransaction} {events : List Event} {event : Event}
    (handled : handleTransaction detector calloc (some update) = .ok events)
    (member : event ∈ events) : Ingested detector update event := by
  rw [handleTransaction_eq] at handled
  split at handled
  · next pumpfun =>
      rw [processPumpfun, processLogMessages_eq] at handled
      split at handled
      · next lines logged =>
          obtain ⟨line, decoded, data, inside, decodes, parsed, made⟩ :=
            mem_scanLogMessages handled member
          obtain ⟨trade, accepted, rfl⟩ := Option.map_eq_some_iff.mp parsed
          exact ⟨pumpfun, calloc, lines, line, decoded, trade, logged, inside, decodes, accepted,
            made⟩
      · cases handled
        cases member
  · rw [processRaydium, processLogMessages_eq] at handled
    split at handled
    · obtain ⟨line, decoded, data, -, decodes, parsed, -⟩ := mem_scanLogMessages handled member
      rw [not_parseSwapOf decodes] at parsed
      cases parsed
    · cases handled
      cases member
  · cases handled
    cases member

theorem Ingested.exists_trade {detector : ProtocolDetector} {update : SubscribeUpdateTransaction}
    {event : Event} (ingested : Ingested detector update event) :
    ∃ trade, event.data = .pumpfunTrade trade := by
  obtain ⟨-, calloc, lines, line, decoded, trade, -, -, -, -, rfl⟩ := ingested
  exact ⟨_, makeEvent_data _⟩

theorem Ingested.signed {detector : ProtocolDetector} {update : SubscribeUpdateTransaction}
    {event : Event} (ingested : Ingested detector update event) : event.Signed := by
  obtain ⟨-, calloc, lines, line, decoded, trade, -, -, -, -, rfl⟩ := ingested
  exact makeEvent_signed _

/-- The buffers that a thread still holds are among some messages. -/
def Client.Carries (client : Client Buffer) (received : List Buffer) : Prop :=
  ∀ call point, client.thread = .attempt call point →
    (∀ buffer, call.recvBuffer = some buffer → buffer ∈ received) ∧
      ∀ buffer, point = .handle buffer → buffer ∈ received

namespace Client

variable {detector : ProtocolDetector} {unpack : Buffer → Option SubscribeUpdate}
  {client next : Client Buffer} {action : ClientAction Buffer} {received : List Buffer}

theorem Carries.append (carries : client.Carries received) (more : List Buffer) :
    client.Carries (received ++ more) := by
  intro call point here
  obtain ⟨filled, held⟩ := carries call point here
  exact ⟨fun buffer holds => List.mem_append_left more (filled buffer holds),
    fun buffer holds => List.mem_append_left more (held buffer holds)⟩

theorem carries_afterWait {call : GrpcCall Buffer} {tag : Tag} {success : Bool}
    (filled : ∀ buffer, call.recvBuffer = some buffer → buffer ∈ received) :
    (client.afterWait call tag success).Carries received := by
  have resumed := resumes_afterWait client call tag success
  generalize client.afterWait call tag success = after at resumed ⊢
  intro later point here
  cases resumed with
  | established | exhausted =>
      cases here
      exact ⟨filled, nofun⟩
  | message stored =>
      cases here
      refine ⟨filled, fun buffer holds => ?_⟩
      cases holds
      exact filled _ stored
  | unestablished | rejected | reported => cases here

/-- A buffer comes with a completion. -/
theorem Carries.step (carries : client.Carries received)
    (taken : client.step detector unpack action = some next) :
    next.Carries (received ++ action.received) := by
  cases steps_of_step taken with
  | stop => exact carries.append _
  | ends details here live =>
      intro call point there
      cases there
      have kept := carries.append [] _ _ here
      exact ⟨kept.1, kept.2⟩
  | test here =>
      intro call point there
      change (if client.running then GeyserThread.subscribe else .finished) = _ at there
      split at there <;> cases there
  | cached here found => exact carries_afterWait (carries.append _ _ _ here).1
  | uncached here | refused here =>
      intro call point there
      cases there
      exact ⟨(carries.append _ _ _ here).1, nofun⟩
  | loop here =>
      intro call point there
      cases there
      refine ⟨(carries.append _ _ _ here).1, fun buffer holds => ?_⟩
      split at holds <;> cases holds
  | leave | sleep | unsubscribed =>
      intro call point there
      cases there
  | subscribed | receiving =>
      intro call point there
      cases there
      exact ⟨nofun, nofun⟩
  | timeout buffer here => exact carries.append _
  | parked buffer here =>
      intro call point there
      cases there
      refine ⟨fun other holds => ?_, nofun⟩
      change (if _ then buffer else _) = some other at holds
      split at holds
      · subst holds
        exact List.mem_append_right received List.mem_cons_self
      · exact (carries.append _ _ _ here).1 other holds
  | found buffer here =>
      refine carries_afterWait fun other holds => ?_
      change (if _ then buffer else _) = some other at holds
      split at holds
      · subst holds
        exact List.mem_append_right received List.mem_cons_self
      · exact (carries.append _ _ _ here).1 other holds
  | handled here | passed calloc here =>
      intro call point there
      cases there
      exact ⟨(carries.append _ _ _ here).1, nofun⟩

theorem dispatched_of_afterWait (client : Client Buffer) (call : GrpcCall Buffer) (tag : Tag)
    (success : Bool) : (client.afterWait call tag success).dispatched = client.dispatched := by
  have resumed := resumes_afterWait client call tag success
  generalize client.afterWait call tag success = after at resumed ⊢
  cases resumed <;> rfl

/-- What a step dispatches comes from the message in its hands. -/
theorem dispatched_of_step (taken : client.step detector unpack action = some next) :
    ∃ events, next.dispatched = client.dispatched ++ events ∧
      ∀ event ∈ events, ∃ call buffer update, client.thread = .attempt call (.handle buffer) ∧
        unpack buffer = some (.transaction (some update)) ∧ Ingested detector update event := by
  cases steps_of_step taken with
  | @handled call buffer update calloc events here message ingested =>
      refine ⟨events, rfl, fun event member => ?_⟩
      cases update with
      | none =>
          cases ingested
          cases member
      | some update => exact ⟨call, buffer, update, here, message, ingested_of_mem ingested member⟩
  | cached | found =>
      exact ⟨[], (dispatched_of_afterWait _ _ _ _).trans (List.append_nil _).symm, nofun⟩
  | _ => exact ⟨[], (List.append_nil _).symm, nofun⟩

theorem dispatched_length_le (taken : client.step detector unpack action = some next) :
    (next.dispatched.drop client.dispatched.length).length ≤ 1 := by
  have nothing : ∀ after : Client Buffer, after.dispatched = client.dispatched →
      (after.dispatched.drop client.dispatched.length).length ≤ 1 := by
    intro after same
    rw [same, List.drop_length]
    exact Nat.zero_le 1
  cases steps_of_step taken with
  | @handled call buffer update calloc events here message ingested =>
      rw [List.drop_left]
      cases update with
      | none =>
          cases ingested
          exact Nat.zero_le 1
      | some update => exact handleTransaction_length_le ingested
  | cached => exact nothing _ (dispatched_of_afterWait _ _ _ _)
  | found => exact nothing _ (dispatched_of_afterWait _ _ _ _)
  | _ => exact nothing _ rfl

end Client

namespace ClientThread

variable {unpack : Buffer → Option SubscribeUpdate} {thread after : ClientThread Buffer}
  {action : ClientAction Buffer}

/-- Whatever is dispatched comes from a message that gRPC has handed over, and what has been pushed
is what is no longer in the outbox. -/
structure Traced (unpack : Buffer → Option SubscribeUpdate) (thread : ClientThread Buffer) :
    Prop where
  carries : thread.client.Carries thread.received
  origin : ∀ event ∈ thread.client.dispatched, ∃ buffer ∈ thread.received, ∃ update,
    unpack buffer = some (.transaction (some update)) ∧ Ingested thread.detector update event

theorem Traced.step (traced : thread.Traced unpack)
    (taken : thread.step unpack action = some after) : after.Traced unpack := by
  obtain ⟨-, stepped⟩ := Option.ite_none_right_eq_some.mp taken
  obtain ⟨client, went, rfl⟩ := Option.map_eq_some_iff.mp stepped
  refine ⟨traced.carries.step went, fun event member => ?_⟩
  obtain ⟨events, dispatched, origin⟩ := Client.dispatched_of_step went
  change event ∈ client.dispatched at member
  rw [dispatched, List.mem_append] at member
  rcases member with old | new
  · obtain ⟨buffer, arrived, update, message, ingested⟩ := traced.origin event old
    exact ⟨buffer, List.mem_append_left _ arrived, update, message, ingested⟩
  · obtain ⟨call, buffer, update, here, message, ingested⟩ := origin event new
    have arrived := (traced.carries call _ here).2 buffer rfl
    exact ⟨buffer, List.mem_append_left _ arrived, update, message, ingested⟩

/-- What a step dispatches goes to the outbox. -/
theorem sent_of_step (taken : thread.step unpack action = some after) :
    ∃ events, after.client.dispatched = thread.client.dispatched ++ events ∧
      after.outbox = thread.outbox ++ events := by
  obtain ⟨-, stepped⟩ := Option.ite_none_right_eq_some.mp taken
  obtain ⟨client, went, rfl⟩ := Option.map_eq_some_iff.mp stepped
  obtain ⟨events, dispatched, -⟩ := Client.dispatched_of_step went
  refine ⟨events, dispatched, ?_⟩
  change thread.outbox ++ client.dispatched.drop thread.client.dispatched.length = _
  rw [dispatched, List.drop_left]

/-- The thread waits for the push of an event before it goes on. -/
theorem outbox_of_step (waits : thread.outbox.length ≤ 1)
    (taken : thread.step unpack action = some after) : after.outbox.length ≤ 1 := by
  obtain ⟨goes, stepped⟩ := Option.ite_none_right_eq_some.mp taken
  obtain ⟨client, went, rfl⟩ := Option.map_eq_some_iff.mp stepped
  change (thread.outbox ++ client.dispatched.drop thread.client.dispatched.length).length ≤ 1
  rw [Bool.or_eq_true, List.isEmpty_iff] at goes
  rcases goes with empty | external
  · rw [empty, List.nil_append]
    exact Client.dispatched_length_le went
  · cases action with
    | serverEnds details =>
        cases Client.steps_of_step went with
        | ends =>
            rw [List.drop_length, List.append_nil]
            exact waits
    | _ => cases external

theorem detector_of_step (taken : thread.step unpack action = some after) :
    after.detector = thread.detector := by
  obtain ⟨-, stepped⟩ := Option.ite_none_right_eq_some.mp taken
  obtain ⟨client, went, rfl⟩ := Option.map_eq_some_iff.mp stepped
  rfl

end ClientThread

end YureiGeyser
