import YureiGeyser.CompletionQueue
import YureiGeyser.Library.Execution
import YureiGeyser.SubscribeRequest

/-!
# Subscriptions in `geyser_client.c`

The client thread opens one subscription after the other.  A step of `Client.step` is what the
thread does between two looks at shared data, the stop flag or the completion queue, or something
that happens to it: `geyser_client_stop`, the end of the call on the side of the server, or an
event of the completion queue.  Received buffers are unpacked by a function of the protobuf
library, which is a parameter.
-/

namespace YureiGeyser

/-- `Geyser__SubscribeUpdate`. -/
inductive SubscribeUpdate
  | transaction (update : Option SubscribeUpdateTransaction)
  | other

/-- A `grpc_call` with the locals of `run_subscription` that its batches write. -/
structure GrpcCall (Buffer : Type) where
  /-- The details of the final status, once the server has ended the call. -/
  ended : Option (List UInt8)
  /-- The batches without a completion so far. -/
  outstanding : Tag → Bool
  eventCache : EventCache
  statusDetails : List UInt8
  recvBuffer : Option Buffer

/-- Where `run_subscription` is. -/
inductive CallPoint (Buffer : Type)
  /-- At the start of `cq_wait_for_tag`. -/
  | take (tag : Tag)
  /-- In the loop of `cq_wait_for_tag`. -/
  | next (tag : Tag)
  /-- At the test of the stop flag. -/
  | loop
  /-- At the start of a receive batch. -/
  | receive
  /-- In possession of a message. -/
  | handle (buffer : Buffer)

/-- Where the client thread is. -/
inductive GeyserThread (Buffer : Type)
  /-- At the test of the stop flag in `geyser_thread`. -/
  | test
  /-- At the start of `run_subscription`. -/
  | subscribe
  | attempt (call : GrpcCall Buffer) (point : CallPoint Buffer)
  /-- `run_subscription` has returned. -/
  | returned (ok : Bool)
  | finished

/-- `struct geyser_client` and its thread, with the events passed to `dispatch_event` so far. -/
structure Client (Buffer : Type) where
  config : YureiConfig
  running : Bool
  backoff : ℕ
  thread : GeyserThread Buffer
  dispatched : List Event

/-- What the thread does, or what happens to it. -/
inductive ClientAction (Buffer : Type)
  /-- `geyser_client_stop` clears the stop flag. -/
  | stop
  /-- The server ends the call with a status. -/
  | serverEnds (details : List UInt8)
  /-- The thread goes on without an answer from a library. -/
  | advance
  /-- A payload is built and the handshake batch is started or refused. -/
  | subscribe (memory : PayloadMemory) (started : Bool)
  /-- A receive batch is started or refused. -/
  | startReceive (started : Bool)
  /-- `grpc_completion_queue_next` returns; a receive batch has also set its buffer. -/
  | next (event : QueueEvent) (buffer : Option Buffer)
  /-- A message is unpacked and handled. -/
  | handle (calloc : Bool)

namespace GrpcCall

variable {Buffer : Type}

/-- A new call, after the batches of the handshake and of the status have been started. -/
def fresh : GrpcCall Buffer where
  ended := none
  outstanding tag := tag ≠ .receive
  eventCache := EventCache.empty
  statusDetails := []
  recvBuffer := none

/-- A receive batch has been started on a null buffer. -/
def receiving (call : GrpcCall Buffer) : GrpcCall Buffer :=
  { call with
    outstanding := Function.update call.outstanding .receive true
    recvBuffer := none }

/-- What gRPC promises about the completion queue: it is shut down by its owner only, an event
completes a batch that was started, and the status batch completes with the final status. -/
def Permits (call : GrpcCall Buffer) : QueueEvent → Bool
  | .shutdown => false
  | .timeout => true
  | .opComplete completion =>
      call.outstanding completion.tag &&
        (completion.tag ≠ .status || completion.success && call.ended.isSome)

/-- The batch of a completion has written its results. -/
def complete (call : GrpcCall Buffer) (buffer : Option Buffer) : QueueEvent → GrpcCall Buffer
  | .opComplete completion =>
      { call with
        outstanding := Function.update call.outstanding completion.tag false
        statusDetails :=
          if completion.tag = .status then call.ended.getD [] else call.statusDetails
        recvBuffer := if completion.tag = .receive then buffer else call.recvBuffer }
  | _ => call

end GrpcCall

namespace Client

variable {Buffer : Type}

/-- The client that `geyser_client_start` creates. -/
def start (config : YureiConfig) : Client Buffer where
  config := config
  running := true
  backoff := 1
  thread := .test
  dispatched := []

/-- After the wait for the handshake. -/
def afterHandshake (client : Client Buffer) (call : GrpcCall Buffer) (success : Bool) :
    Client Buffer :=
  if !success then { client with thread := .returned false }
  else { client with thread := .attempt call .loop }

/-- After the wait for a message. -/
def afterReceive (client : Client Buffer) (call : GrpcCall Buffer) (success : Bool) :
    Client Buffer :=
  match success, call.recvBuffer with
  | true, some buffer => { client with thread := .attempt call (.handle buffer) }
  | _, _ => { client with thread := .attempt call (.take .status) }

/-- After the wait for the status. -/
def afterStatus (client : Client Buffer) (call : GrpcCall Buffer) (success : Bool) :
    Client Buffer :=
  if success && client.config.fromSlotSet &&
      sliceContainsString call.statusDetails fromSlotNotSupported then
    { client with config := ⟨false, 0⟩, thread := .returned false }
  else { client with thread := .returned true }

/-- After `cq_wait_for_tag`, whose result and `ev.success` are always tested together. -/
def afterWait (client : Client Buffer) (call : GrpcCall Buffer) : Tag → Bool → Client Buffer
  | .handshake => client.afterHandshake call
  | .status => client.afterStatus call
  | .receive => client.afterReceive call

/-- The back-off after an attempt. -/
def nextBackoff (backoff : ℕ) (ok : Bool) : ℕ :=
  let backoff := if backoff < 32 then backoff * 2 else backoff
  if ok then 1 else backoff

/-- The steps of the thread that depend on its own data and on the stop flag only. -/
def advance (client : Client Buffer) : Option (Client Buffer) :=
  match client.thread with
  | .test => some { client with thread := if client.running then .subscribe else .finished }
  | .attempt call (.take tag) =>
      match cqCacheTake call.eventCache tag with
      | some (completion, eventCache) =>
          some (client.afterWait { call with eventCache } tag completion.success)
      | none => some { client with thread := .attempt call (.next tag) }
  | .attempt call .loop =>
      some { client with
        thread := .attempt call (if client.running then .receive else .take .status) }
  | .returned ok =>
      if !client.running then some { client with thread := .finished }
      else some { client with thread := .test, backoff := nextBackoff client.backoff ok }
  | _ => none

/-- An event of the completion queue. -/
def deliver (client : Client Buffer) (event : QueueEvent) (buffer : Option Buffer) :
    Option (Client Buffer) :=
  match client.thread with
  | .attempt call (.next tag) =>
      if call.Permits event then
        let call := call.complete buffer event
        match cqWaitForTag tag call.eventCache event with
        | .again eventCache =>
            some { client with thread := .attempt { call with eventCache } (.next tag) }
        | .found completion => some (client.afterWait call tag completion.success)
        | .failed => some (client.afterWait call tag false)
      else none
  | _ => none

/-- A step of the client. -/
def step (detector : ProtocolDetector) (unpack : Buffer → Option SubscribeUpdate)
    (client : Client Buffer) : ClientAction Buffer → Option (Client Buffer)
  | .stop => some { client with running := false }
  | .serverEnds details =>
      match client.thread with
      | .attempt call point =>
          if call.ended.isSome then none
          else some { client with thread := .attempt { call with ended := some details } point }
      | _ => none
  | .advance => client.advance
  | .subscribe memory started =>
      match client.thread with
      | .subscribe =>
          match buildSubscribePayload client.config detector memory with
          | none => some { client with thread := .returned false }
          | some _ =>
              if !started then some { client with thread := .returned false }
              else some { client with thread := .attempt GrpcCall.fresh (.take .handshake) }
      | _ => none
  | .startReceive started =>
      match client.thread with
      | .attempt call .receive =>
          if !started then some { client with thread := .attempt call (.take .status) }
          else some { client with thread := .attempt call.receiving (.take .receive) }
      | _ => none
  | .next event buffer => client.deliver event buffer
  | .handle calloc =>
      match client.thread with
      | .attempt call (.handle buffer) =>
          match unpack buffer with
          | some (.transaction update) =>
              match handleTransaction detector calloc update with
              | .error _ => none
              | .ok events =>
                  some { client with
                    thread := .attempt call .loop
                    dispatched := client.dispatched ++ events }
          | _ => some { client with thread := .attempt call .loop }
      | _ => none

/-! ## What a step can do -/

/-- The steps of a client, one case for each way through the code. -/
inductive Steps (detector : ProtocolDetector) (unpack : Buffer → Option SubscribeUpdate)
    (client : Client Buffer) : ClientAction Buffer → Client Buffer → Prop
  | stop : Steps detector unpack client .stop { client with running := false }
  | ends {call : GrpcCall Buffer} {point : CallPoint Buffer} (details : List UInt8)
      (here : client.thread = .attempt call point) (live : call.ended = none) :
      Steps detector unpack client (.serverEnds details)
        { client with thread := .attempt { call with ended := some details } point }
  | test (here : client.thread = .test) :
      Steps detector unpack client .advance
        { client with thread := if client.running then .subscribe else .finished }
  | cached {call : GrpcCall Buffer} {tag : Tag} {completion : Completion} {cache : EventCache}
      (here : client.thread = .attempt call (.take tag))
      (taken : cqCacheTake call.eventCache tag = some (completion, cache)) :
      Steps detector unpack client .advance
        (client.afterWait { call with eventCache := cache } tag completion.success)
  | uncached {call : GrpcCall Buffer} {tag : Tag}
      (here : client.thread = .attempt call (.take tag))
      (nothing : cqCacheTake call.eventCache tag = none) :
      Steps detector unpack client .advance { client with thread := .attempt call (.next tag) }
  | loop {call : GrpcCall Buffer} (here : client.thread = .attempt call .loop) :
      Steps detector unpack client .advance
        { client with
          thread := .attempt call (if client.running then .receive else .take .status) }
  | leave {ok : Bool} (here : client.thread = .returned ok) (stopped : client.running = false) :
      Steps detector unpack client .advance { client with thread := .finished }
  | sleep {ok : Bool} (here : client.thread = .returned ok) (running : client.running = true) :
      Steps detector unpack client .advance
        { client with thread := .test, backoff := nextBackoff client.backoff ok }
  | subscribed {memory : PayloadMemory} {request : SubscribeRequest}
      (here : client.thread = .subscribe)
      (built : buildSubscribePayload client.config detector memory = some request) :
      Steps detector unpack client (.subscribe memory true)
        { client with thread := .attempt GrpcCall.fresh (.take .handshake) }
  | unsubscribed {memory : PayloadMemory} {started : Bool} (here : client.thread = .subscribe)
      (failed : buildSubscribePayload client.config detector memory = none ∨ started = false) :
      Steps detector unpack client (.subscribe memory started)
        { client with thread := .returned false }
  | refused {call : GrpcCall Buffer} (here : client.thread = .attempt call .receive) :
      Steps detector unpack client (.startReceive false)
        { client with thread := .attempt call (.take .status) }
  | receiving {call : GrpcCall Buffer} (here : client.thread = .attempt call .receive) :
      Steps detector unpack client (.startReceive true)
        { client with thread := .attempt call.receiving (.take .receive) }
  | timeout {call : GrpcCall Buffer} {tag : Tag} (buffer : Option Buffer)
      (here : client.thread = .attempt call (.next tag)) :
      Steps detector unpack client (.next .timeout buffer) client
  | parked {call : GrpcCall Buffer} {tag : Tag} {completion : Completion}
      (buffer : Option Buffer) (here : client.thread = .attempt call (.next tag))
      (permitted : call.Permits (.opComplete completion)) (other : completion.tag ≠ tag) :
      Steps detector unpack client (.next (.opComplete completion) buffer)
        { client with
          thread := .attempt { call.complete buffer (.opComplete completion) with
            eventCache := cqCacheStore call.eventCache completion } (.next tag) }
  | found {call : GrpcCall Buffer} {completion : Completion} (buffer : Option Buffer)
      (here : client.thread = .attempt call (.next completion.tag))
      (permitted : call.Permits (.opComplete completion)) :
      Steps detector unpack client (.next (.opComplete completion) buffer)
        (client.afterWait (call.complete buffer (.opComplete completion)) completion.tag
          completion.success)
  | handled {call : GrpcCall Buffer} {buffer : Buffer} {update : Option SubscribeUpdateTransaction}
      {calloc : Bool} {events : List Event} (here : client.thread = .attempt call (.handle buffer))
      (message : unpack buffer = some (.transaction update))
      (ingested : handleTransaction detector calloc update = .ok events) :
      Steps detector unpack client (.handle calloc)
        { client with
          thread := .attempt call .loop
          dispatched := client.dispatched ++ events }
  | passed {call : GrpcCall Buffer} {buffer : Buffer} (calloc : Bool)
      (here : client.thread = .attempt call (.handle buffer))
      (other : ∀ update, unpack buffer ≠ some (.transaction update)) :
      Steps detector unpack client (.handle calloc)
        { client with thread := .attempt call .loop }

/-- The ways on after a wait. -/
inductive Resumes (client : Client Buffer) (call : GrpcCall Buffer) :
    Tag → Bool → Client Buffer → Prop
  | established : Resumes client call .handshake true { client with thread := .attempt call .loop }
  | unestablished : Resumes client call .handshake false { client with thread := .returned false }
  | message {buffer : Buffer} (received : call.recvBuffer = some buffer) :
      Resumes client call .receive true { client with thread := .attempt call (.handle buffer) }
  | exhausted {success : Bool} (closed : success = false ∨ call.recvBuffer = none) :
      Resumes client call .receive success { client with thread := .attempt call (.take .status) }
  | rejected (replaying : client.config.fromSlotSet = true)
      (told : sliceContainsString call.statusDetails fromSlotNotSupported = true) :
      Resumes client call .status true
        { client with config := ⟨false, 0⟩, thread := .returned false }
  | reported {success : Bool}
      (accepted : success = true → client.config.fromSlotSet = true →
        sliceContainsString call.statusDetails fromSlotNotSupported = false) :
      Resumes client call .status success { client with thread := .returned true }

theorem resumes_afterWait (client : Client Buffer) (call : GrpcCall Buffer) (tag : Tag)
    (success : Bool) : Resumes client call tag success (client.afterWait call tag success) := by
  cases tag with
  | handshake =>
      cases success with
      | false => exact .unestablished
      | true => exact .established
  | status =>
      rw [afterWait, afterStatus]
      split
      · next disabled =>
          rw [Bool.and_eq_true, Bool.and_eq_true] at disabled
          obtain ⟨⟨rfl, replaying⟩, told⟩ := disabled
          exact .rejected replaying told
      · next kept =>
          refine .reported fun succeeded replaying => ?_
          rw [succeeded, replaying] at kept
          exact Bool.eq_false_iff.mpr kept
  | receive =>
      cases success with
      | false => exact .exhausted (.inl rfl)
      | true =>
          cases received : call.recvBuffer with
          | none =>
              simp only [afterWait, afterReceive, received]
              exact .exhausted (.inr received)
          | some buffer =>
              simp only [afterWait, afterReceive, received]
              exact .message received

/-- A call goes on as it was, and the thread does not ask the queue before it has looked into the
table. -/
theorem attempt_afterWait {client : Client Buffer} {call later : GrpcCall Buffer} {tag : Tag}
    {success : Bool} {point : CallPoint Buffer}
    (here : (client.afterWait call tag success).thread = .attempt later point) :
    later = call ∧ ∀ tag', point ≠ .next tag' := by
  have resumed := resumes_afterWait client call tag success
  generalize client.afterWait call tag success = after at resumed here
  cases resumed <;> cases here <;> exact ⟨rfl, fun tag' asks => by cases asks⟩

section Inversion

variable {detector : ProtocolDetector} {unpack : Buffer → Option SubscribeUpdate}
  {client next : Client Buffer}

theorem steps_of_advance (taken : client.advance = some next) :
    Steps detector unpack client .advance next := by
  rw [advance] at taken
  split at taken
  · next here =>
      cases taken
      exact .test here
  · next call tag here =>
      split at taken
      · next completion cache found =>
          cases taken
          exact .cached here found
      · next nothing =>
          cases taken
          exact .uncached here nothing
  · next call here =>
      cases taken
      exact .loop here
  · next ok here =>
      split at taken
      · next stopped =>
          cases taken
          exact .leave here ((Bool.not_eq_true' _).mp stopped)
      · next running =>
          cases taken
          exact .sleep here (by simpa using running)
  · cases taken

theorem steps_of_deliver {event : QueueEvent} {buffer : Option Buffer}
    (taken : client.deliver event buffer = some next) :
    Steps detector unpack client (.next event buffer) next := by
  rw [deliver] at taken
  split at taken
  · next call tag here =>
      split at taken
      · next permitted =>
          cases event with
          | shutdown => cases permitted
          | timeout =>
              cases taken
              have same : { client with thread := .attempt call (.next tag) } = client := by
                rw [← here]
              change Steps detector unpack client (.next .timeout buffer)
                { client with thread := .attempt call (.next tag) }
              rw [same]
              exact .timeout buffer here
          | opComplete completion =>
              by_cases awaited : completion.tag = tag
              · simp only [cqWaitForTag, if_pos awaited] at taken
                cases taken
                subst awaited
                exact .found buffer here permitted
              · simp only [cqWaitForTag, if_neg awaited] at taken
                cases taken
                exact .parked buffer here permitted awaited
      · cases taken
  · cases taken

/-- Every step is one of the cases. -/
theorem steps_of_step {action : ClientAction Buffer}
    (taken : client.step detector unpack action = some next) :
    Steps detector unpack client action next := by
  cases action with
  | stop =>
      cases taken
      exact .stop
  | serverEnds details =>
      rw [step] at taken
      split at taken
      · next call point here =>
          split at taken
          · cases taken
          · next live =>
              cases taken
              exact .ends details here (Option.not_isSome_iff_eq_none.mp live)
      · cases taken
  | advance => exact steps_of_advance taken
  | subscribe memory started =>
      rw [step] at taken
      split at taken
      · next here =>
          split at taken
          · next failed =>
              cases taken
              exact .unsubscribed here (.inl failed)
          · next request built =>
              cases started with
              | false =>
                  cases taken
                  exact .unsubscribed here (.inr rfl)
              | true =>
                  cases taken
                  exact .subscribed here built
      · cases taken
  | startReceive started =>
      rw [step] at taken
      split at taken
      · next call here =>
          cases started with
          | false =>
              cases taken
              exact .refused here
          | true =>
              cases taken
              exact .receiving here
      · cases taken
  | next event buffer => exact steps_of_deliver taken
  | handle calloc =>
      rw [step] at taken
      split at taken
      · next call buffer here =>
          split at taken
          · next update message =>
              split at taken
              · cases taken
              · next events ingested =>
                  cases taken
                  exact .handled here message ingested
          · next other =>
              cases taken
              exact .passed calloc here other
      · cases taken

end Inversion

end Client

end YureiGeyser
