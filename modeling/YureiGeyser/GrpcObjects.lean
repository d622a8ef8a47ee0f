import YureiGeyser.Library.Ledger
import YureiGeyser.Library.Progress
import YureiGeyser.Liveness

/-!
# The gRPC objects of a subscription

`run_subscription` creates objects, lends some of them to its batches and releases all of them on
each of its ways out.  The operations of a step of the client are run on a ledger: a batch that
completes reads what it sends and creates what it has received, be it under `cq_wait_for_tag` or
under `destroy_completion_queue`, which waits for all that is still outstanding.
-/

namespace YureiGeyser

variable {Buffer : Type}

/-- What `run_subscription` and the functions it calls create, and what the batches write. -/
inductive GrpcObject
  /-- `grpc_init`. -/
  | library
  | creds
  | channel
  | cq
  | method
  | host
  | call
  /-- The packed request. -/
  | buffer
  /-- The slice that is copied from the packed request. -/
  | slice
  | payload
  | recvInitialMetadata
  | trailingMetadata
  | statusDetails
  | recvBuffer
  | reader
  /-- The bytes of a message. -/
  | message
  | update
  deriving DecidableEq

/-! ## The operations -/

section Operations

open LedgerOp GrpcObject

/-- The start of `run_subscription`, up to the call. -/
def openOps : List (LedgerOp GrpcObject) :=
  [acquire creds, use creds, acquire channel, acquire cq, acquire method, acquire host, use channel,
    use cq, use method, use host, acquire call, release host, release method]

/-- `build_subscribe_payload`, when it returns a payload. -/
def payloadOps : List (LedgerOp GrpcObject) :=
  [acquire buffer, use buffer, use buffer, acquire slice, use slice, acquire .payload,
    release slice, release buffer]

/-- A batch completes; a receive batch may bring a message.  What gRPC does here is not in the
repository and is assumed as its documentation has it: until the handshake batch completes it reads
the payload, and a batch that completes, be it with a failure, hands over to the caller what it
writes, the initial metadata, the trailing metadata and the details, or the message. -/
def completeOps (received : Bool) : Tag → List (LedgerOp GrpcObject)
  | .handshake => [use .payload, acquire recvInitialMetadata]
  | .status => [acquire trailingMetadata, acquire statusDetails]
  | .receive => if received then [acquire recvBuffer] else []

/-- The loop of `destroy_completion_queue`; a cancelled receive batch brings no message. -/
def drainOps (outstanding : Tag → Bool) : List (LedgerOp GrpcObject) :=
  [Tag.handshake, .status, .receive].flatMap fun tag =>
    if outstanding tag then completeOps false tag else []

/-- `destroy_completion_queue`. -/
def destroyCompletionQueueOps (outstanding : Tag → Bool) : List (LedgerOp GrpcObject) :=
  use cq :: drainOps outstanding ++ [use cq, release cq]

/-- What is behind the label `cleanup`. -/
def cleanupOps (outstanding : Tag → Bool) : List (LedgerOp GrpcObject) :=
  [clear statusDetails, clear recvInitialMetadata, clear trailingMetadata, release call] ++
    destroyCompletionQueueOps outstanding ++ [release channel, release creds]

/-- There is no payload. -/
def unbuiltOps : List (LedgerOp GrpcObject) :=
  release call :: destroyCompletionQueueOps (fun _ => false) ++ [release channel, release creds]

/-- The handshake batch is refused. -/
def refusedOps : List (LedgerOp GrpcObject) :=
  [release .payload, release call, use cq, release cq, release channel, release creds]

/-- A message is unpacked and handled. -/
def handleOps (unpacked : Bool) : List (LedgerOp GrpcObject) :=
  [use recvBuffer, acquire reader, use reader, acquire message, use message] ++
    (if unpacked then [acquire update] else []) ++
      [release message, release reader, release recvBuffer] ++
        if unpacked then [use update, release update] else []

/-- What follows a wait. -/
def afterWaitOps (call : GrpcCall Buffer) (success : Bool) : Tag → List (LedgerOp GrpcObject)
  | .handshake => release .payload :: if success then [] else cleanupOps call.outstanding
  | .status => (if success then [use statusDetails] else []) ++ cleanupOps call.outstanding
  | .receive => []

end Operations

/-- What a step of the client does to the objects. -/
def Client.ops (detector : ProtocolDetector) (unpack : Buffer → Option SubscribeUpdate)
    (client : Client Buffer) : ClientAction Buffer → List (LedgerOp GrpcObject)
  | .advance =>
      match client.thread with
      | .attempt call (.take tag) =>
          match cqCacheTake call.eventCache tag with
          | some (completion, _) => afterWaitOps call completion.success tag
          | none => []
      | .test => if client.running then [] else [.release .library]
      | .returned _ => if client.running then [] else [.release .library]
      | _ => []
  | .subscribe memory started =>
      openOps ++
        match buildSubscribePayload client.config detector memory with
        | none => unbuiltOps
        | some _ => payloadOps ++ [.use .call, .use .payload] ++
          if started then [.use .call] else refusedOps
  | .startReceive _ => [.use .call]
  | .next (.opComplete completion) buffer =>
      match client.thread with
      | .attempt call (.next tag) =>
          .use .cq :: completeOps buffer.isSome completion.tag ++
            if completion.tag = tag then
              afterWaitOps (call.complete buffer (.opComplete completion)) completion.success tag
            else []
      | _ => []
  | .next _ _ => [.use .cq]
  | .handle _ =>
      match client.thread with
      | .attempt _ (.handle buffer) => handleOps (unpack buffer).isSome
      | _ => []
  | _ => []

/-- The client with the ledger.  An object that is held when its variable goes out of scope is lost:
nothing will release it. -/
structure Bookkeeping (Buffer : Type) where
  client : Client Buffer
  held : Finset GrpcObject
  lost : Multiset GrpcObject

namespace Bookkeeping

/-- The client enters the loop of `geyser_thread`. -/
def start (config : YureiConfig) : Bookkeeping Buffer where
  client := Client.start config
  held := {.library}
  lost := 0

/-- `run_subscription` has returned, or it has left its loop and with it `recv_buffer`. -/
def settle (books : Bookkeeping Buffer) : Bookkeeping Buffer :=
  match books.client.thread with
  | .returned _ =>
      { books with held := {.library}, lost := books.lost + (books.held.erase .library).val }
  | .attempt _ (.take .status) =>
      { books with
        held := books.held.erase .recvBuffer
        lost := books.lost + (books.held ∩ {.recvBuffer}).val }
  | _ => books

/-- A step of the client with its operations; it has no result when an operation has none. -/
def step (detector : ProtocolDetector) (unpack : Buffer → Option SubscribeUpdate)
    (books : Bookkeeping Buffer) (action : ClientAction Buffer) : Option (Bookkeeping Buffer) := do
  let client ← books.client.step detector unpack action
  let held ← Execution.run Ledger.step books.held (books.client.ops detector unpack action)
  return settle { books with client, held }

end Bookkeeping

/-! ## What a subscription holds -/

section Footprints

open GrpcObject Ledger

/-- What is held during a call, apart from the payload and a message. -/
def bag (established reported : Bool) : Finset GrpcObject :=
  {library, creds, channel, cq, GrpcObject.call} ∪
    ((if established then {recvInitialMetadata} else ∅) ∪
      if reported then {trailingMetadata, statusDetails} else ∅)

/-- What the status batch writes when it completes behind the clean-up. -/
def late (outstanding : Bool) : Finset GrpcObject :=
  if outstanding then {trailingMetadata, statusDetails} else ∅

theorem leave_takes : Takes [.release library] {library} ∅ := by
  decide

theorem open_takes : Takes openOps {library} (bag false false) := by
  decide

theorem payload_takes : Takes payloadOps (bag false false) ({.payload} ∪ bag false false) := by
  have alone : Takes payloadOps ∅ {.payload} := by decide
  have apart : ∀ op ∈ payloadOps, op.object ∉ bag false false := by decide
  have framed := alone.frame apart
  rw [Finset.empty_union] at framed
  exact framed

theorem started_takes :
    Takes ([LedgerOp.use GrpcObject.call, LedgerOp.use GrpcObject.payload] ++
        [LedgerOp.use GrpcObject.call])
      ({.payload} ∪ bag false false) ({.payload} ∪ bag false false) := by
  decide

theorem unbuilt_takes : Takes unbuiltOps (bag false false) {library} := by
  decide

theorem refused_takes :
    Takes ([LedgerOp.use GrpcObject.call, LedgerOp.use GrpcObject.payload] ++ refusedOps)
      ({.payload} ∪ bag false false) {library} := by
  decide

theorem call_mem_bag : ∀ established reported, GrpcObject.call ∈ bag established reported := by
  decide

theorem cq_mem_bag : ∀ established reported, cq ∈ bag established reported := by
  decide

theorem handle_takes (unpacked established reported : Bool) :
    Takes (handleOps unpacked) ({recvBuffer} ∪ bag established reported)
      (bag established reported) := by
  have alone : ∀ unpacked, Takes (handleOps unpacked) {recvBuffer} ∅ := by decide
  have apart : ∀ unpacked established reported, ∀ op ∈ handleOps unpacked,
      op.object ∉ bag established reported := by
    decide
  have framed := (alone unpacked).frame (apart unpacked established reported)
  rw [Finset.empty_union] at framed
  exact framed

/-- The clean-up releases everything; a status batch that is outstanding writes behind it. -/
theorem cleanup_takes {outstanding : Tag → Bool} (answered : outstanding .handshake = false)
    (idle : outstanding .receive = false) (established : Bool) :
    Takes (cleanupOps outstanding) (bag established !outstanding .status)
      ({library} ∪ late (outstanding .status)) := by
  have drained : drainOps outstanding =
      if outstanding .status then completeOps false .status else [] := by
    simp [drainOps, answered, idle]
  have all : ∀ status established, Takes ([LedgerOp.clear statusDetails,
      LedgerOp.clear recvInitialMetadata, LedgerOp.clear trailingMetadata,
      LedgerOp.release GrpcObject.call] ++
        (LedgerOp.use cq :: (if status then completeOps false .status else []) ++
          [LedgerOp.use cq, LedgerOp.release cq]) ++
        [LedgerOp.release channel, LedgerOp.release creds]) (bag established !status)
        ({library} ∪ late status) := by
    decide
  rw [cleanupOps, destroyCompletionQueueOps, drained]
  exact all (outstanding .status) established

/-- The status arrives. -/
theorem report_takes : ∀ received established,
    Takes (.use cq :: completeOps received .status) (bag established false) (bag established true) ∧
      Takes (.use cq :: completeOps received .status) ({.payload} ∪ bag established false)
        ({.payload} ∪ bag established true) := by
  decide

/-- The handshake is over. -/
theorem answer_takes : ∀ received reported,
    Takes (.use cq :: completeOps received .handshake ++ [.release .payload])
      ({.payload} ∪ bag false reported) (bag true reported) := by
  decide

/-- A receive batch completes. -/
theorem receive_takes : ∀ received reported,
    Takes (.use cq :: completeOps received .receive) (bag true reported)
      ((if received then {recvBuffer} else ∅) ∪ bag true reported) := by
  decide

/-- What follows the wait for the status. -/
theorem status_takes (call : GrpcCall Buffer) (success : Bool)
    (complete : ∀ tag, call.outstanding tag = false) :
    Takes (afterWaitOps call success .status) (bag true true) ({library} ∪ late false) := by
  have looked : ∀ success : Bool,
      Takes (if success then [.use statusDetails] else []) (bag true true) (bag true true) := by
    decide
  have cleaned := cleanup_takes (complete .handshake) (complete .receive) true
  rw [complete .status] at cleaned
  exact (looked success).append cleaned

end Footprints

/-- What the thread holds. -/
def GeyserThread.holds : GeyserThread Buffer → Finset GrpcObject
  | .finished => ∅
  | .attempt call (.take .handshake) => {.payload} ∪ bag false !call.outstanding .status
  | .attempt call (.next .handshake) => {.payload} ∪ bag false !call.outstanding .status
  | .attempt call (.handle _) => {.recvBuffer} ∪ bag true !call.outstanding .status
  | .attempt call _ => bag true !call.outstanding .status
  | _ => {.library}

theorem holds_congr {call other : GrpcCall Buffer}
    (same : other.outstanding .status = call.outstanding .status) (point : CallPoint Buffer) :
    (GeyserThread.attempt other point).holds = (GeyserThread.attempt call point).holds := by
  cases point with
  | take tag | next tag => cases tag <;> simp only [GeyserThread.holds, same]
  | _ => simp only [GeyserThread.holds, same]

theorem cq_mem_next (call : GrpcCall Buffer) (tag : Tag) :
    .cq ∈ (GeyserThread.attempt call (.next tag)).holds := by
  cases tag with
  | handshake => exact Finset.mem_union_right _ (cq_mem_bag _ _)
  | status | receive => exact cq_mem_bag _ _

/-- The objects that a step loses. -/
def Client.losses (client : Client Buffer) : ClientAction Buffer → Multiset GrpcObject
  | .next (.opComplete ⟨.handshake, false⟩) _ =>
      match client.thread with
      | .attempt call (.next .handshake) => (late (call.outstanding .status)).val
      | _ => 0
  | .next (.opComplete ⟨.receive, false⟩) (some _) =>
      match client.thread with
      | .attempt _ (.next .receive) => {.recvBuffer}
      | _ => 0
  | _ => 0

theorem Client.returned_afterStatus (client : Client Buffer) (call : GrpcCall Buffer)
    (success : Bool) : ∃ ok, (client.afterWait call .status success).thread = .returned ok := by
  have resumed := resumes_afterWait client call .status success
  generalize client.afterWait call .status success = after at resumed ⊢
  cases resumed with
  | rejected => exact ⟨false, rfl⟩
  | reported => exact ⟨true, rfl⟩

namespace Bookkeeping

variable {detector : ProtocolDetector} {unpack : Buffer → Option SubscribeUpdate}
  {books : Bookkeeping Buffer} {next : Client Buffer} {action : ClientAction Buffer}

/-- A step whose operations succeed. -/
theorem step_of_takes (taken : books.client.step detector unpack action = some next)
    {held : Finset GrpcObject}
    (takes : Ledger.Takes (books.client.ops detector unpack action) books.held held) :
    books.step detector unpack action = some (settle { books with client := next, held }) := by
  have ran : Execution.run Ledger.step books.held (books.client.ops detector unpack action) =
      some held := takes
  simp only [step, taken, ran]
  rfl

/-- Where the thread holds what it needs, nothing goes out of scope. -/
theorem settle_holds (client : Client Buffer) (lost : Multiset GrpcObject) :
    settle ⟨client, client.thread.holds, lost⟩ = ⟨client, client.thread.holds, lost⟩ := by
  rw [settle]
  dsimp only
  split
  · next ok here =>
      rw [here]
      exact congrArg (mk client {.library}) (add_zero lost)
  · next call here =>
      rw [here]
      have kept : ∀ reported, (bag true reported).erase .recvBuffer = bag true reported ∧
          (bag true reported ∩ {.recvBuffer}).val = 0 := by
        decide
      obtain ⟨held, nothing⟩ := kept (!call.outstanding .status)
      dsimp only [GeyserThread.holds]
      rw [held, nothing, add_zero]
  · rfl

/-- What the clean-up has left is lost. -/
theorem settle_returned {client : Client Buffer} {ok : Bool} (here : client.thread = .returned ok)
    (outstanding : Bool) (lost : Multiset GrpcObject) :
    settle ⟨client, {.library} ∪ late outstanding, lost⟩ =
      ⟨client, client.thread.holds, lost + (late outstanding).val⟩ := by
  have left : ∀ outstanding, (({.library} ∪ late outstanding).erase .library).val =
      (late outstanding).val := by
    decide
  rw [settle]
  dsimp only
  split
  · rw [left, here]
    rfl
  · next call other =>
      rw [here] at other
      cases other
  · next other _ => exact absurd here (other ok)

/-- A step that loses nothing. -/
theorem step_of_holds (held : books.held = books.client.thread.holds)
    (taken : books.client.step detector unpack action = some next)
    (takes : Ledger.Takes (books.client.ops detector unpack action) books.client.thread.holds
      next.thread.holds) (nothing : books.client.losses action = 0) :
    books.step detector unpack action =
      some ⟨next, next.thread.holds, books.lost + books.client.losses action⟩ := by
  rw [← held] at takes
  rw [step_of_takes taken takes, settle_holds, nothing, add_zero]

/-- A step with which `run_subscription` returns. -/
theorem step_of_return (held : books.held = books.client.thread.holds)
    (taken : books.client.step detector unpack action = some next) {ok outstanding : Bool}
    (takes : Ledger.Takes (books.client.ops detector unpack action) books.client.thread.holds
      ({.library} ∪ late outstanding)) (returned : next.thread = .returned ok)
    (losses : books.client.losses action = (late outstanding).val) :
    books.step detector unpack action =
      some ⟨next, next.thread.holds, books.lost + books.client.losses action⟩ := by
  rw [← held] at takes
  rw [step_of_takes taken takes, settle_returned returned, losses]

/-- The status was parked, so all batches have completed. -/
theorem step_of_cached (held : books.held = books.client.thread.holds) {arrived : List Completion}
    {yielded : List (Tag × Completion)} (sound : Watched.Sound ⟨books.client, arrived, yielded⟩)
    {call : GrpcCall Buffer} {tag : Tag} {completion : Completion} {cache : EventCache}
    (taken : books.client.step detector unpack .advance =
      some (books.client.afterWait { call with eventCache := cache } tag completion.success))
    (here : books.client.thread = .attempt call (.take tag))
    (found : cqCacheTake call.eventCache tag = some (completion, cache)) :
    books.step detector unpack .advance =
      some ⟨books.client.afterWait { call with eventCache := cache } tag completion.success,
        (books.client.afterWait { call with eventCache := cache } tag
          completion.success).thread.holds,
        books.lost + books.client.losses .advance⟩ := by
  obtain ⟨same, items⟩ := cqCacheTake_eq_some found
  have tidy := sound.tidy call _ here
  have member : completion ∈ call.eventCache.parked := items.mem_iff.mpr List.mem_cons_self
  have reports := tidy.parked_status completion member
  rw [same] at reports
  subst reports
  have complete : ∀ tag, call.outstanding tag = false := by
    intro tag
    by_contra outstanding
    rw [Bool.not_eq_false] at outstanding
    have status : tag = .status := by
      rcases tidy.awaited tag outstanding with status | awaited
      · exact status
      · exact (Option.some.inj awaited).symm
    rw [status] at outstanding
    rw [tidy.parked_nil outstanding] at member
    cases member
  obtain ⟨ok, returned⟩ :=
    books.client.returned_afterStatus { call with eventCache := cache } completion.success
  refine @step_of_return _ _ _ _ _ _ held taken ok false ?_ returned rfl
  rw [here]
  simp only [Client.ops, here, found]
  change Ledger.Takes _ (bag true !call.outstanding .status) _
  rw [complete .status]
  exact status_takes call completion.success complete

theorem step_of_parked (held : books.held = books.client.thread.holds) {arrived : List Completion}
    {yielded : List (Tag × Completion)} (sound : Watched.Sound ⟨books.client, arrived, yielded⟩)
    {call : GrpcCall Buffer} {tag : Tag} {completion : Completion} {buffer : Option Buffer}
    (taken : books.client.step detector unpack (.next (.opComplete completion) buffer) = some next)
    (here : books.client.thread = .attempt call (.next tag))
    (permitted : call.Permits (.opComplete completion)) (other : completion.tag ≠ tag)
    (there : next.thread = .attempt { call.complete buffer (.opComplete completion) with
      eventCache := cqCacheStore call.eventCache completion } (.next tag)) :
    books.step detector unpack (.next (.opComplete completion) buffer) =
      some ⟨next, next.thread.holds,
        books.lost + books.client.losses (.next (.opComplete completion) buffer)⟩ := by
  rw [GrpcCall.Permits, Bool.and_eq_true] at permitted
  have outstanding := permitted.1
  obtain ⟨parked, success⟩ := completion
  have status : parked = .status := by
    rcases (sound.tidy call _ here).awaited parked outstanding with status | awaited
    · exact status
    · exact absurd (Option.some.inj awaited).symm other
  subst status
  have nothing : books.client.losses (.next (.opComplete ⟨.status, success⟩) buffer) = 0 := by
    cases success <;> rfl
  refine step_of_holds held taken ?_ nothing
  rw [here, there]
  simp only [Client.ops, here, if_neg other, List.append_nil]
  cases tag with
  | status => exact absurd rfl other
  | handshake =>
      change Ledger.Takes _ ({.payload} ∪ bag false !call.outstanding .status) _
      rw [outstanding]
      exact (report_takes _ _).2
  | receive =>
      change Ledger.Takes _ (bag true !call.outstanding .status) _
      rw [outstanding]
      exact (report_takes _ _).1


/-- A handshake that fails leads to the clean-up, whether the status has arrived or not. -/
theorem step_of_handshake (held : books.held = books.client.thread.holds)
    {arrived : List Completion} {yielded : List (Tag × Completion)}
    (sound : Watched.Sound ⟨books.client, arrived, yielded⟩) {call : GrpcCall Buffer}
    {success : Bool} {buffer : Option Buffer}
    (taken : books.client.step detector unpack (.next (.opComplete ⟨.handshake, success⟩) buffer) =
      some (books.client.afterWait (call.complete buffer (.opComplete ⟨.handshake, success⟩))
        .handshake success))
    (here : books.client.thread = .attempt call (.next .handshake)) :
    books.step detector unpack (.next (.opComplete ⟨.handshake, success⟩) buffer) =
      some ⟨books.client.afterWait (call.complete buffer (.opComplete ⟨.handshake, success⟩))
          .handshake success,
        (books.client.afterWait (call.complete buffer (.opComplete ⟨.handshake, success⟩))
          .handshake success).thread.holds,
        books.lost + books.client.losses (.next (.opComplete ⟨.handshake, success⟩) buffer)⟩ := by
  have answered := answer_takes buffer.isSome !call.outstanding .status
  cases success with
  | true =>
      refine step_of_holds held taken ?_ rfl
      simp only [Client.ops, here, if_true]
      exact answered
  | false =>
      have idle : call.outstanding .receive = false := by
        by_contra outstanding
        rw [Bool.not_eq_false] at outstanding
        rcases (sound.tidy call _ here).awaited .receive outstanding with status | awaited
        · cases status
        · cases awaited
      have cleaned := @cleanup_takes
        (call.complete buffer (.opComplete ⟨.handshake, false⟩)).outstanding rfl idle true
      have losses : books.client.losses (.next (.opComplete ⟨.handshake, false⟩) buffer) =
          (late (call.outstanding .status)).val := by
        simp only [Client.losses, here]
      refine @step_of_return _ _ _ _ _ _ held taken false (call.outstanding .status) ?_ rfl losses
      simp only [Client.ops, here, if_true]
      exact answered.append cleaned

theorem step_of_status (held : books.held = books.client.thread.holds) {arrived : List Completion}
    {yielded : List (Tag × Completion)} (sound : Watched.Sound ⟨books.client, arrived, yielded⟩)
    {call : GrpcCall Buffer} {success : Bool} {buffer : Option Buffer}
    (taken : books.client.step detector unpack (.next (.opComplete ⟨.status, success⟩) buffer) =
      some (books.client.afterWait (call.complete buffer (.opComplete ⟨.status, success⟩)) .status
        success))
    (here : books.client.thread = .attempt call (.next .status))
    (outstanding : call.outstanding .status = true) :
    books.step detector unpack (.next (.opComplete ⟨.status, success⟩) buffer) =
      some ⟨books.client.afterWait (call.complete buffer (.opComplete ⟨.status, success⟩)) .status
          success,
        (books.client.afterWait (call.complete buffer (.opComplete ⟨.status, success⟩)) .status
          success).thread.holds,
        books.lost + books.client.losses (.next (.opComplete ⟨.status, success⟩) buffer)⟩ := by
  have complete : ∀ tag,
      (call.complete buffer (.opComplete ⟨.status, success⟩)).outstanding tag = false := by
    intro tag
    by_cases status : tag = .status
    · subst status
      rfl
    · by_contra active
      change ¬ Function.update call.outstanding .status false tag = false at active
      rw [Function.update_of_ne status, Bool.not_eq_false] at active
      rcases (sound.tidy call _ here).awaited tag active with same | awaited
      · exact status same
      · exact status (Option.some.inj awaited).symm
  obtain ⟨ok, returned⟩ := books.client.returned_afterStatus
    (call.complete buffer (.opComplete ⟨.status, success⟩)) success
  have nothing : books.client.losses (.next (.opComplete ⟨.status, success⟩) buffer) = 0 := by
    cases success <;> rfl
  refine @step_of_return _ _ _ _ _ _ held taken ok false ?_ returned nothing
  rw [here]
  simp only [Client.ops, here, if_true]
  change Ledger.Takes _ (bag true !call.outstanding .status) _
  rw [outstanding]
  exact (report_takes _ _).1.append (status_takes _ success complete)

theorem step_of_receive (held : books.held = books.client.thread.holds) {call : GrpcCall Buffer}
    {success : Bool} {buffer : Option Buffer}
    (taken : books.client.step detector unpack (.next (.opComplete ⟨.receive, success⟩) buffer) =
      some (books.client.afterWait (call.complete buffer (.opComplete ⟨.receive, success⟩)) .receive
        success))
    (here : books.client.thread = .attempt call (.next .receive)) :
    books.step detector unpack (.next (.opComplete ⟨.receive, success⟩) buffer) =
      some ⟨books.client.afterWait (call.complete buffer (.opComplete ⟨.receive, success⟩)) .receive
          success,
        (books.client.afterWait (call.complete buffer (.opComplete ⟨.receive, success⟩)) .receive
          success).thread.holds,
        books.lost + books.client.losses (.next (.opComplete ⟨.receive, success⟩) buffer)⟩ := by
  have received := receive_takes buffer.isSome !call.outstanding .status
  have kept : ∀ reported,
      ({.recvBuffer} ∪ bag true reported).erase .recvBuffer = bag true reported ∧
      (({.recvBuffer} ∪ bag true reported) ∩ {.recvBuffer} : Finset GrpcObject).val =
        {.recvBuffer} := by
    decide
  have runs : Ledger.Takes
      (books.client.ops detector unpack (.next (.opComplete ⟨.receive, success⟩) buffer))
      books.client.thread.holds
      ((if buffer.isSome then {.recvBuffer} else ∅) ∪ bag true !call.outstanding .status) := by
    rw [here]
    simp only [Client.ops, here, if_true, afterWaitOps, List.append_nil]
    exact received
  cases buffer with
  | none =>
      rw [Option.isSome_none, if_neg Bool.false_ne_true, Finset.empty_union] at runs
      cases success with
      | false => exact step_of_holds held taken runs rfl
      | true => exact step_of_holds held taken runs rfl
  | some message =>
      rw [Option.isSome_some, if_pos rfl] at runs
      cases success with
      | true => exact step_of_holds held taken runs rfl
      | false =>
          -- The buffer that nobody looks at goes out of scope with the loop.
          obtain ⟨left, lost⟩ := kept !call.outstanding .status
          rw [← held] at runs
          rw [step_of_takes taken runs]
          change some (mk _ (Finset.erase _ _) (_ + (_ ∩ _ : Finset GrpcObject).val)) = _
          rw [left, lost]
          simp only [Client.losses, here]
          rfl

/-- The objects of a step are those that the thread needs, and the losses are known. -/
theorem books_step (held : books.held = books.client.thread.holds) (tracked : books.client.Tracked)
    (taken : books.client.step detector unpack action = some next) :
    books.step detector unpack action =
      some ⟨next, next.thread.holds, books.lost + books.client.losses action⟩ := by
  obtain ⟨arrived, yielded, sound⟩ := tracked
  cases Client.steps_of_step taken with
  | stop => exact step_of_holds held taken (Ledger.Takes.nil _) rfl
  | @ends call point details here live =>
      refine step_of_holds held taken ?_ rfl
      have kept := @holds_congr _ call { call with ended := some details } rfl point
      rw [here]
      dsimp only
      rw [kept]
      exact Ledger.Takes.nil (GeyserThread.attempt call point).holds
  | test here =>
      refine step_of_holds held taken ?_ rfl
      simp only [Client.ops, here]
      cases books.client.running with
      | true => exact Ledger.Takes.nil _
      | false => exact leave_takes
  | cached here found => exact step_of_cached held sound taken here found
  | @uncached call tag here nothing =>
      refine step_of_holds held taken ?_ rfl
      simp only [Client.ops, here, nothing]
      cases tag <;> exact Ledger.Takes.nil _
  | loop here =>
      refine step_of_holds held taken ?_ rfl
      simp only [Client.ops, here]
      cases books.client.running <;> exact Ledger.Takes.nil _
  | leave here stopped =>
      refine step_of_holds held taken ?_ rfl
      simp only [Client.ops, here, stopped]
      exact leave_takes
  | sleep here running =>
      refine step_of_holds held taken ?_ rfl
      simp only [Client.ops, here, running]
      exact Ledger.Takes.nil _
  | subscribed here built =>
      refine step_of_holds held taken ?_ rfl
      simp only [Client.ops, here, built]
      exact open_takes.append (payload_takes.append started_takes)
  | @unsubscribed memory started here failed =>
      refine step_of_holds held taken ?_ rfl
      simp only [Client.ops, here]
      refine open_takes.append ?_
      cases built : buildSubscribePayload books.client.config detector memory with
      | none => exact unbuilt_takes
      | some request =>
          rcases failed with impossible | rfl
          · rw [built] at impossible
            cases impossible
          · exact payload_takes.append refused_takes
  | refused here =>
      refine step_of_holds held taken ?_ rfl
      rw [here]
      exact .use (call_mem_bag _ _)
  | receiving here =>
      refine step_of_holds held taken ?_ rfl
      rw [here]
      exact .use (call_mem_bag _ _)
  | @timeout call tag buffer here =>
      refine step_of_holds held taken ?_ rfl
      rw [here]
      exact .use (cq_mem_next call tag)
  | parked buffer here permitted other =>
      exact step_of_parked held sound taken here permitted other rfl
  | @found call completion buffer here permitted =>
      rw [GrpcCall.Permits, Bool.and_eq_true] at permitted
      have outstanding := permitted.1
      obtain ⟨tag, success⟩ := completion
      cases tag with
      | handshake => exact step_of_handshake held sound taken here
      | status => exact step_of_status held sound taken here outstanding
      | receive => exact step_of_receive held taken here
  | handled here message ingested =>
      refine step_of_holds held taken ?_ rfl
      simp only [Client.ops, here, message]
      exact handle_takes _ _ _
  | passed calloc here other =>
      refine step_of_holds held taken ?_ rfl
      simp only [Client.ops, here]
      exact handle_takes _ _ _

/-- The ledger is that of the thread. -/
structure Balanced (books : Bookkeeping Buffer) : Prop where
  held : books.held = books.client.thread.holds
  tracked : books.client.Tracked
  /-- What is lost is what the status batch writes, or a message. -/
  lost : ∀ object ∈ books.lost, object ∈ insert .recvBuffer (late true)

theorem start_balanced (config : YureiConfig) : (start config : Bookkeeping Buffer).Balanced where
  held := rfl
  tracked := Client.tracked_start config
  lost object member := by cases member

theorem losses_mem (client : Client Buffer) (action : ClientAction Buffer) :
    ∀ object ∈ client.losses action, object ∈ insert GrpcObject.recvBuffer (late true) := by
  have written : ∀ outstanding, ∀ object ∈ (late outstanding).val,
      object ∈ insert GrpcObject.recvBuffer (late true) := by
    decide
  intro object member
  unfold Client.losses at member
  split at member
  · split at member
    · exact written _ object member
    · cases member
  · split at member
    · rw [Multiset.mem_singleton.mp member]
      exact Finset.mem_insert_self _ _
    · cases member
  · cases member

theorem balanced_step (balanced : books.Balanced)
    (taken : books.client.step detector unpack action = some next) :
    ∃ after, books.step detector unpack action = some after ∧ after.client = next ∧
      after.Balanced := by
  obtain ⟨held, tracked, lost⟩ := balanced
  refine ⟨_, books_step held tracked taken, rfl, rfl, Client.tracked_step tracked taken, ?_⟩
  intro object member
  rcases Multiset.mem_add.mp member with before | now
  · exact lost object before
  · exact losses_mem books.client action object now

/-- In every run of the client the operations on the gRPC objects succeed: none is created twice,
used before it is created or after it is released, or released twice.  Between two subscriptions
nothing but the library is held, nothing at all in the end, and if anything is lost on the way it is
a message or what a status batch has written. -/
theorem grpc_objects_balanced {config : YureiConfig} {moves : List (ClientAction Buffer)}
    {client : Client Buffer}
    (execution : Execution.run (Client.step detector unpack) (Client.start config) moves =
      some client) :
    ∃ books, Execution.run (step detector unpack) (start config) moves = some books ∧
      books.client = client ∧ books.held = client.thread.holds ∧
        ∀ object ∈ books.lost, object ∈ insert .recvBuffer (late true) := by
  have matched : ∀ (before : Client Buffer) (action : ClientAction Buffer) (after : Client Buffer)
      (books : Bookkeeping Buffer), books.client = before ∧ books.Balanced →
        before.step detector unpack action = some after →
          ∃ next, books.step detector unpack action = some next ∧ next.client = after ∧
            next.Balanced := by
    rintro before action after books ⟨rfl, balanced⟩ taken
    exact balanced_step balanced taken
  obtain ⟨books, ran, rfl, balanced⟩ :=
    Execution.exists_run_of_lockstep matched ⟨rfl, start_balanced config⟩ execution
  exact ⟨books, ran, rfl, balanced.held, balanced.lost⟩

/-- A detector without a program. -/
def idleDetector : ProtocolDetector :=
  protocolDetectorInit countingKey false countingKey false

/-- A handshake fails at once, and the client is stopped. -/
def failedHandshake : List (ClientAction Unit) :=
  [.advance, .subscribe ⟨true, true, true⟩ true, .advance,
    .next (.opComplete ⟨.handshake, false⟩) none, .stop, .advance]

theorem grpc_objects_balanced_failedHandshake :
    ∃ client books, Execution.run (Client.step idleDetector fun _ => some .other)
        (Client.start ⟨false, 0⟩) failedHandshake = some client ∧
      Execution.run (step idleDetector fun _ => some .other) (start ⟨false, 0⟩) failedHandshake =
        some books ∧
      books.held = client.thread.holds ∧ books.lost = {.trailingMetadata, .statusDetails} := by
  have outcome : (Execution.run (step idleDetector fun _ => some .other) (start ⟨false, 0⟩)
      failedHandshake).map (fun books => books.lost) =
        some {.trailingMetadata, .statusDetails} := by
    decide +kernel
  obtain ⟨client, execution⟩ : ∃ client, Execution.run
      (Client.step idleDetector fun _ => some .other) (Client.start ⟨false, 0⟩) failedHandshake =
        some client :=
    ⟨_, rfl⟩
  obtain ⟨books, ran, -, held, -⟩ := grpc_objects_balanced execution
  refine ⟨client, books, execution, ran, held, ?_⟩
  rw [ran] at outcome
  exact Option.some.inj outcome

/-- A handshake fails once the status has arrived, and a receive batch fails without a message. -/
def Clean (client : Client Buffer) (action : ClientAction Buffer) : Prop :=
  (∀ call buffer, client.thread = .attempt call (.next .handshake) →
      action = .next (.opComplete ⟨.handshake, false⟩) buffer → call.outstanding .status = false) ∧
    ∀ call message, client.thread = .attempt call (.next .receive) →
      action ≠ .next (.opComplete ⟨.receive, false⟩) (some message)

theorem losses_eq_zero_iff (client : Client Buffer) (action : ClientAction Buffer) :
    client.losses action = 0 ↔ Clean client action := by
  have written : ∀ outstanding, (late outstanding).val = 0 ↔ outstanding = false := by decide
  unfold Client.losses
  split
  · next buffer =>
      split
      · next call here =>
          rw [written]
          refine ⟨fun reported => ⟨fun other buffer there same => ?_, nofun⟩, fun clean => ?_⟩
          · rw [here] at there
            cases there
            exact reported
          · exact clean.1 call buffer here rfl
      · next other =>
          refine iff_of_true rfl ⟨fun call buffer here same => ?_, nofun⟩
          exact absurd here (other call)
  · next message =>
      split
      · next call here =>
          refine iff_of_false (Multiset.singleton_ne_zero _) fun clean => ?_
          exact clean.2 call message here rfl
      · next other =>
          refine iff_of_true rfl ⟨nofun, fun call message here => ?_⟩
          exact absurd here (other call)
  · next first second =>
      refine iff_of_true rfl ⟨fun call buffer here same => ?_, fun call message here same => ?_⟩
      · exact absurd same (first buffer)
      · exact absurd same (second message)

/-- Throughout a run of the client no object is lost exactly when no handshake fails before the
status has arrived and no receive batch fails and brings a message all the same. -/
theorem nothing_lost_iff (detector : ProtocolDetector) (unpack : Buffer → Option SubscribeUpdate)
    (config : YureiConfig) (moves : List (ClientAction Buffer)) :
    Execution.Throughout (step detector unpack) (fun books => books.lost = 0) (start config) moves ↔
      Execution.Meets (step detector unpack) (fun books action => Clean books.client action)
        (start config) moves := by
  have inverted : ∀ (books : Bookkeeping Buffer) (action : ClientAction Buffer)
      (after : Bookkeeping Buffer), books.Balanced →
        books.step detector unpack action = some after →
          after.Balanced ∧ after.lost = books.lost + books.client.losses action := by
    intro books action after balanced taken
    obtain ⟨next, went, -⟩ := Option.bind_eq_some_iff.mp taken
    obtain ⟨found, same, -, kept⟩ := balanced_step balanced went
    have known := books_step balanced.held balanced.tracked went
    rw [taken] at same known
    cases same
    cases known
    exact ⟨kept, rfl⟩
  have initially : (start config : Bookkeeping Buffer).lost = 0 := rfl
  refine Execution.throughout_iff_meets
    (fun books action after balanced taken => (inverted books action after balanced taken).1)
    (fun books action after balanced nothing taken => ?_) (start_balanced config) initially moves
  rw [(inverted books action after balanced taken).2, nothing, zero_add]
  exact losses_eq_zero_iff books.client action

end Bookkeeping

end YureiGeyser
