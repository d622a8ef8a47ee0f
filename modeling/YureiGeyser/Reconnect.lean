import YureiGeyser.Library.Replay
import YureiGeyser.ReplayFallback

/-!
# Reconnecting

A server has a chain of transactions that land one after the other.  To a request with a resume
position it delivers transactions from that slot on, to one without only transactions that land
after the request, and to no subscription a transaction twice.  The client keeps no record of its
progress: every request carries the configured position, and what an earlier subscription has
delivered may be delivered and dispatched again.
-/

namespace YureiGeyser

/-- What the server sends: the transaction at a place of the chain, or something else. -/
inductive ServerMessage
  | transaction (index : ℕ)
  | other

/-- A message as the client unpacks it. -/
def ServerMessage.unpack (chain : ℕ → SubscribeUpdateTransaction) :
    ServerMessage → Option SubscribeUpdate
  | .transaction index => some (.transaction (some (chain index)))
  | .other => some .other

/-- The transactions that a request with a resume position asks for. -/
def FromSlot (chain : ℕ → SubscribeUpdateTransaction) (slot : UInt64) (index : ℕ) : Prop :=
  slot ≤ (chain index).slot

instance (chain : ℕ → SubscribeUpdateTransaction) (slot : UInt64) (index : ℕ) :
    Decidable (FromSlot chain slot index) :=
  inferInstanceAs (Decidable (slot ≤ (chain index).slot))

/-- One subscription as the server and an observer of the client see it. -/
abbrev Session := Replay.Session UInt64 Event

/-- The client, the progress of the chain and the subscriptions, newest first. -/
structure Feed where
  client : Client ServerMessage
  landed : ℕ
  sessions : List Session

/-- A transaction lands, or something happens at the client. -/
inductive FeedAction
  | land
  | client (action : ClientAction ServerMessage)

/-- The transaction that a receive batch has brought. -/
def ClientAction.delivery? : ClientAction ServerMessage → Option ℕ
  | .next (.opComplete ⟨.receive, _⟩) (some (.transaction index)) => some index
  | _ => none

namespace Feed

variable {chain : ℕ → SubscribeUpdateTransaction} {detector : ProtocolDetector}

/-- Before the first subscription. -/
def start (config : YureiConfig) : Feed where
  client := Client.start config
  landed := 0
  sessions := []

/-- A request opens a session, and the events of a message are booked to its transaction. -/
def observe (feed : Feed) (detector : ProtocolDetector) (after : Client ServerMessage) :
    ClientAction ServerMessage → List Session
  | .subscribe memory true =>
      match buildSubscribePayload feed.client.config detector memory with
      | some request => ⟨request.fromSlot, feed.landed, [], []⟩ :: feed.sessions
      | none => feed.sessions
  | .handle _ =>
      match feed.client.thread, feed.sessions with
      | .attempt _ (.handle (.transaction index)), session :: older =>
          session.book index (after.dispatched.drop feed.client.dispatched.length) :: older
      | _, sessions => sessions
  | _ => feed.sessions

/-- The sessions after a step of the client.  A transaction must have been offered. -/
def settle (chain : ℕ → SubscribeUpdateTransaction) (detector : ProtocolDetector) (feed : Feed)
    (after : Client ServerMessage) (action : ClientAction ServerMessage) : Option Feed :=
  match action.delivery?, feed.sessions with
  | none, _ => some { feed with client := after, sessions := feed.observe detector after action }
  | some _, [] => none
  | some index, session :: older =>
      if session.Offers (FromSlot chain) feed.landed index then
        some { feed with client := after, sessions := session.deliver index :: older }
      else none

/-- A step of the client against a server that keeps its word. -/
def step (chain : ℕ → SubscribeUpdateTransaction) (detector : ProtocolDetector) (feed : Feed) :
    FeedAction → Option Feed
  | .land => some { feed with landed := feed.landed + 1 }
  | .client action =>
      match feed.client.step detector (ServerMessage.unpack chain) action with
      | none => none
      | some after => feed.settle chain detector after action

end Feed

/-! ## What a step can do -/

/-- The transaction that the thread is about to handle. -/
def GeyserThread.held? : GeyserThread ServerMessage → Option ℕ
  | .attempt _ (.handle (.transaction index)) => some index
  | _ => none

/-- The client is about to handle a transaction. -/
def Client.Holds (client : Client ServerMessage) (index : ℕ) : Prop :=
  client.thread.held? = some index

namespace Feed

variable {chain : ℕ → SubscribeUpdateTransaction} {detector : ProtocolDetector}
  {feed next : Feed} {action : FeedAction}

/-- The steps of a feed. -/
inductive Moves (chain : ℕ → SubscribeUpdateTransaction) (feed : Feed) : Feed → Prop
  | land : Moves chain feed { feed with landed := feed.landed + 1 }
  /-- Nothing is requested, delivered or dispatched. -/
  | quiet {after : Client ServerMessage}
      (dispatched : after.dispatched = feed.client.dispatched)
      (held : ∀ index, after.Holds index → feed.client.Holds index) :
      Moves chain feed { feed with client := after }
  /-- A subscription is requested. -/
  | request {after : Client ServerMessage} {fromSlot : Option UInt64}
      (position : fromSlot =
        if feed.client.config.fromSlotSet then some feed.client.config.fromSlot else none)
      (dispatched : after.dispatched = feed.client.dispatched)
      (idle : ∀ index, ¬ after.Holds index) :
      Moves chain feed { feed with
        client := after, sessions := ⟨fromSlot, feed.landed, [], []⟩ :: feed.sessions }
  /-- A transaction is delivered. -/
  | deliver {after : Client ServerMessage} {session : Session} {older : List Session} {index : ℕ}
      (current : feed.sessions = session :: older)
      (offered : session.Offers (FromSlot chain) feed.landed index)
      (dispatched : after.dispatched = feed.client.dispatched)
      (held : ∀ other, after.Holds other → other = index) :
      Moves chain feed { feed with client := after, sessions := session.deliver index :: older }
  /-- A transaction is handled. -/
  | handle {after : Client ServerMessage} {session : Session} {older : List Session} {index : ℕ}
      {events : List Event} (current : feed.sessions = session :: older)
      (holding : feed.client.Holds index) (single : events.length ≤ 1)
      (dispatched : after.dispatched = feed.client.dispatched ++ events)
      (idle : ∀ index, ¬ after.Holds index) :
      Moves chain feed { feed with client := after, sessions := session.book index events :: older }

theorem holds_of_thread_eq {client after : Client ServerMessage} {index : ℕ}
    (same : after.thread = client.thread) (held : after.Holds index) : client.Holds index := by
  rw [Client.Holds, ← same]
  exact held

/-- A wait ends in the possession of a transaction when it was for a message. -/
theorem holds_afterWait {client : Client ServerMessage} {call : GrpcCall ServerMessage} {tag : Tag}
    {success : Bool} {index : ℕ} (held : (client.afterWait call tag success).Holds index) :
    tag = .receive ∧ call.recvBuffer = some (.transaction index) := by
  rw [Client.Holds] at held
  have resumed := Client.resumes_afterWait client call tag success
  generalize client.afterWait call tag success = after at resumed held
  cases resumed with
  | @message buffer received =>
      cases buffer with
      | other => cases held
      | transaction other =>
          cases held
          exact ⟨rfl, received⟩
  | established => cases held
  | unestablished => cases held
  | exhausted closed => cases held
  | rejected replaying told => cases held
  | reported accepted => cases held

/-- A completion that leaves the client with a transaction has delivered it. -/
theorem moves_of_settle {event : QueueEvent} {buffer : Option ServerMessage}
    {after : Client ServerMessage}
    (settled : feed.settle chain detector after (.next event buffer) = some next)
    (dispatched : after.dispatched = feed.client.dispatched)
    (held : ∀ index, after.Holds index → feed.client.Holds index ∨
      (ClientAction.next event buffer).delivery? = some index)
    (elsewhere : ∀ index, ¬ feed.client.Holds index) : feed.Moves chain next := by
  rw [settle] at settled
  split at settled
  · next quiet =>
      cases settled
      refine .quiet dispatched fun index holds => ?_
      rcases held index holds with before | delivered
      · exact before
      · rw [quiet] at delivered
        cases delivered
  · cases settled
  · next index session older delivered current =>
      split at settled
      · next offered =>
          cases settled
          refine .deliver current offered dispatched fun other holds => ?_
          rcases held other holds with before | same
          · exact absurd before (elsewhere other)
          · rw [delivered] at same
            exact (Option.some.inj same).symm
      · cases settled

theorem delivery_of_received {call : GrpcCall ServerMessage} {completion : Completion}
    {buffer : Option ServerMessage} {index : ℕ} (tag : completion.tag = .receive)
    (received : (call.complete buffer (.opComplete completion)).recvBuffer =
      some (.transaction index)) :
    (ClientAction.next (.opComplete completion) buffer).delivery? = some index := by
  obtain ⟨_, success⟩ := completion
  cases tag
  cases received
  rfl

theorem dispatched_afterWait (client : Client ServerMessage) (call : GrpcCall ServerMessage)
    (tag : Tag) (success : Bool) :
    (client.afterWait call tag success).dispatched = client.dispatched := by
  have resumed := Client.resumes_afterWait client call tag success
  generalize client.afterWait call tag success = after at resumed ⊢
  cases resumed <;> rfl

/-- Every step is one of the moves. -/
theorem moves_of_step (sound : feed.client.Sound)
    (pending : ∀ index, feed.client.Holds index → feed.sessions ≠ [])
    (taken : feed.step chain detector action = some next) : feed.Moves chain next := by
  cases action with
  | land =>
      cases taken
      exact .land
  | client action =>
      rw [step] at taken
      split at taken
      · cases taken
      · next after stepped =>
          cases Client.steps_of_step stepped with
          | stop =>
              cases taken
              exact .quiet rfl fun index => holds_of_thread_eq rfl
          | @ends call point details here live =>
              cases taken
              refine .quiet rfl fun index holds => ?_
              rw [Client.Holds, here]
              cases point with
              | handle message => cases message <;> exact holds
              | _ => exact holds
          | test here =>
              cases taken
              refine .quiet rfl fun index holds => ?_
              rw [Client.Holds] at holds
              split at holds <;> cases holds
          | cached here found =>
              cases taken
              obtain ⟨rfl, -, -⟩ := Client.tag_of_cached (sound _ _ here) found
              refine .quiet (dispatched_afterWait _ _ _ _) fun index holds => ?_
              cases (holds_afterWait holds).1
          | uncached here nothing =>
              cases taken
              exact .quiet rfl fun index holds => nomatch holds
          | loop here =>
              cases taken
              refine .quiet rfl fun index holds => ?_
              rw [Client.Holds] at holds
              split at holds <;> cases holds
          | leave here stopped =>
              cases taken
              exact .quiet rfl fun index holds => nomatch holds
          | sleep here running =>
              cases taken
              exact .quiet rfl fun index holds => nomatch holds
          | subscribed here built =>
              simp only [settle, ClientAction.delivery?, observe, built] at taken
              cases taken
              exact .request (buildSubscribePayload_fromSlot built) rfl
                fun index holds => nomatch holds
          | @unsubscribed memory started here failed =>
              have same : feed.observe detector { feed.client with thread := .returned false }
                  (.subscribe memory started) = feed.sessions := by
                cases started with
                | false => rfl
                | true =>
                    rcases failed with failed | started
                    · simp only [observe, failed]
                    · cases started
              simp only [settle, ClientAction.delivery?, same] at taken
              cases taken
              exact .quiet rfl fun index holds => nomatch holds
          | refused here =>
              cases taken
              exact .quiet rfl fun index holds => nomatch holds
          | receiving here =>
              cases taken
              exact .quiet rfl fun index holds => nomatch holds
          | timeout buffer here =>
              cases taken
              exact .quiet rfl fun index => holds_of_thread_eq rfl
          | parked buffer here permitted other =>
              refine moves_of_settle taken rfl (fun index holds => nomatch holds) ?_
              intro index holds
              rw [Client.Holds, here] at holds
              cases holds
          | found buffer here permitted =>
              refine moves_of_settle taken (dispatched_afterWait _ _ _ _) ?_ ?_
              · intro index holds
                obtain ⟨tag, received⟩ := holds_afterWait holds
                exact .inr (delivery_of_received tag received)
              · intro index holds
                rw [Client.Holds, here] at holds
                cases holds
          | @handled call buffer update calloc events here message ingested =>
              cases buffer with
              | other => cases message
              | transaction index =>
                  cases message
                  have holding : feed.client.Holds index := by
                    rw [Client.Holds, here]
                    rfl
                  cases current : feed.sessions with
                  | nil => exact absurd current (pending index holding)
                  | cons session older =>
                      simp only [settle, ClientAction.delivery?, observe, here, current,
                        List.drop_left] at taken
                      cases taken
                      exact .handle current holding (handleTransaction_length_le ingested) rfl
                        fun index holds => nomatch holds
          | @passed call buffer calloc here other =>
              cases buffer with
              | transaction index => exact absurd rfl (other _)
              | other =>
                  simp only [settle, ClientAction.delivery?, observe, here] at taken
                  cases taken
                  exact .quiet rfl fun index holds => nomatch holds

/-! ## Whole runs -/

/-- What holds of a feed in every run. -/
structure Sound (feed : Feed) : Prop where
  client : feed.client.Sound
  sessions : ∀ session ∈ feed.sessions, session.Sound feed.landed
  order : feed.sessions.Pairwise Replay.Session.Follows
  /-- A client that would ask for a replay has always done so. -/
  replaying : feed.client.config.fromSlotSet = true →
    ∀ session ∈ feed.sessions, session.position ≠ none
  /-- The transaction in the hands of the client has been delivered, but not been booked. -/
  pending : ∀ index, feed.client.Holds index → ∃ session older,
    feed.sessions = session :: older ∧ session.outcomeCount index < session.delivered.count index
  /-- Every dispatched event is booked. -/
  accounted : feed.client.dispatched =
    (feed.sessions.reverse.flatMap fun session => session.outcomes).map Prod.snd

theorem start_sound (config : YureiConfig) : (start config).Sound where
  client := Client.start_sound config
  sessions session member := by cases member
  order := List.Pairwise.nil
  replaying replaying session member := by cases member
  pending index holds := nomatch holds
  accounted := rfl

theorem client_step (taken : feed.step chain detector action = some next) :
    next.client = feed.client ∨ ∃ action,
      feed.client.step detector (ServerMessage.unpack chain) action = some next.client := by
  cases action with
  | land =>
      cases taken
      exact .inl rfl
  | client action =>
      rw [step] at taken
      split at taken
      · cases taken
      · next after stepped =>
          refine .inr ⟨action, ?_⟩
          rw [stepped]
          rw [settle] at taken
          split at taken
          · cases taken
            rfl
          · cases taken
          · split at taken
            · cases taken
              rfl
            · cases taken

theorem sessions_of_moves (sound : feed.Sound) (moves : feed.Moves chain next) :
    ∀ session ∈ next.sessions, session.Sound next.landed := by
  have before := sound.sessions
  cases moves with
  | land =>
      intro session member
      have here := before session member
      exact ⟨here.once, fun index inside => Nat.lt_succ_of_lt (here.landed index inside),
        here.newer, here.booked⟩
  | quiet dispatched held => exact before
  | request position dispatched idle =>
      intro session member
      cases member with
      | head =>
          refine ⟨List.nodup_nil, ?_, ?_, fun index => le_rfl⟩
          · intro index inside
            cases inside
          · intro unset index inside
            cases inside
      | tail _ member => exact before session member
  | deliver sessions_eq offered dispatched held =>
      rw [sessions_eq, List.forall_mem_cons] at before
      exact List.forall_mem_cons.mpr ⟨before.1.deliver offered, before.2⟩
  | handle sessions_eq holding single dispatched idle =>
      obtain ⟨session, older, current, room⟩ := sound.pending _ holding
      cases sessions_eq.symm.trans current
      rw [sessions_eq, List.forall_mem_cons] at before
      exact List.forall_mem_cons.mpr ⟨before.1.book room single, before.2⟩

theorem order_of_moves (sound : feed.Sound) (moves : feed.Moves chain next) :
    next.sessions.Pairwise Replay.Session.Follows := by
  have before := sound.order
  cases moves with
  | land => exact before
  | quiet dispatched held => exact before
  | request position dispatched idle =>
      refine List.pairwise_cons.mpr ⟨fun older member => ⟨fun _ => ?_, fun gone => ?_⟩, before⟩
      · exact (sound.sessions older member).landed
      · by_contra replays
        rw [position] at replays
        split at replays
        · next replaying => exact sound.replaying replaying older member gone
        · exact replays rfl
  | deliver sessions_eq offered dispatched held =>
      rw [sessions_eq, List.pairwise_cons] at before
      refine List.pairwise_cons.mpr ⟨fun older member => ?_, before.2⟩
      have follows := before.1 older member
      exact ⟨follows.fresh, follows.given_up⟩
  | handle sessions_eq holding single dispatched idle =>
      rw [sessions_eq, List.pairwise_cons] at before
      refine List.pairwise_cons.mpr ⟨fun older member => ?_, before.2⟩
      have follows := before.1 older member
      exact ⟨follows.fresh, follows.given_up⟩

theorem replaying_of_moves (sound : feed.Sound) (moves : feed.Moves chain next)
    (replaying : feed.client.config.fromSlotSet = true) :
    ∀ session ∈ next.sessions, session.position ≠ none := by
  have before := sound.replaying replaying
  cases moves with
  | land => exact before
  | quiet dispatched held => exact before
  | request position dispatched idle =>
      refine List.forall_mem_cons.mpr ⟨?_, before⟩
      rw [position, if_pos replaying]
      exact Option.some_ne_none _
  | deliver sessions_eq offered dispatched held =>
      rw [sessions_eq, List.forall_mem_cons] at before
      exact List.forall_mem_cons.mpr before
  | handle sessions_eq holding single dispatched idle =>
      rw [sessions_eq, List.forall_mem_cons] at before
      exact List.forall_mem_cons.mpr before

theorem pending_of_moves (sound : feed.Sound) (moves : feed.Moves chain next) (index : ℕ)
    (holds : next.client.Holds index) : ∃ session older, next.sessions = session :: older ∧
      session.outcomeCount index < session.delivered.count index := by
  cases moves with
  | land => exact sound.pending index holds
  | quiet dispatched held => exact sound.pending index (held index holds)
  | request position dispatched idle => exact absurd holds (idle index)
  | @deliver after session older index' sessions_eq offered dispatched held =>
      cases held index holds
      refine ⟨_, _, rfl, ?_⟩
      have member : session ∈ feed.sessions := by
        rw [sessions_eq]
        exact List.mem_cons_self
      have before := (sound.sessions session member).booked index
      rw [session.count_deliver_self]
      exact Nat.lt_succ_of_le before
  | handle sessions_eq holding single dispatched idle => exact absurd holds (idle index)

theorem accounted_of_moves (sound : feed.Sound) (moves : feed.Moves chain next) :
    next.client.dispatched =
      (next.sessions.reverse.flatMap fun session => session.outcomes).map Prod.snd := by
  have before := sound.accounted
  cases moves with
  | land => exact before
  | quiet dispatched held => exact dispatched.trans before
  | request position dispatched idle =>
      refine (dispatched.trans before).trans ?_
      simp
  | deliver sessions_eq offered dispatched held =>
      refine (dispatched.trans before).trans ?_
      rw [sessions_eq]
      simp [Replay.Session.deliver]
  | handle sessions_eq holding single dispatched idle =>
      rw [sessions_eq] at before
      refine (dispatched.trans (congrArg (· ++ _) before)).trans ?_
      simp [Replay.Session.book]

/-- A client without a resume position does not get one. -/
theorem fromSlotSet_step (taken : feed.step chain detector action = some next)
    (unset : feed.client.config.fromSlotSet = false) : next.client.config.fromSlotSet = false := by
  rcases client_step taken with same | ⟨action, stepped⟩
  · rwa [same]
  · exact Client.fromSlotSet_step stepped unset

theorem sound_client_step (sound : feed.client.Sound)
    (taken : feed.step chain detector action = some next) : next.client.Sound := by
  rcases client_step taken with same | ⟨action, stepped⟩
  · rwa [same]
  · exact Client.sound_step sound stepped

theorem moves_of_sound (sound : feed.Sound) (taken : feed.step chain detector action = some next) :
    feed.Moves chain next := by
  refine moves_of_step sound.client (fun index holds => ?_) taken
  obtain ⟨session, older, current, -⟩ := sound.pending index holds
  rw [current]
  exact List.cons_ne_nil session older

theorem sound_step (sound : feed.Sound) (taken : feed.step chain detector action = some next) :
    next.Sound := by
  have moves := moves_of_sound sound taken
  have still : next.client.config.fromSlotSet = true → feed.client.config.fromSlotSet = true := by
    intro replaying
    by_contra disabled
    rw [fromSlotSet_step taken (Bool.eq_false_iff.mpr disabled)] at replaying
    cases replaying
  exact ⟨sound_client_step sound.client taken, sessions_of_moves sound moves,
    order_of_moves sound moves, fun replaying => replaying_of_moves sound moves (still replaying),
    pending_of_moves sound moves, accounted_of_moves sound moves⟩

/-- Without a resume position no session asks for a replay. -/
theorem replayCount_step (sound : feed.Sound) (unset : feed.client.config.fromSlotSet = false)
    (none_replays : Replay.replayCount feed.sessions = 0)
    (taken : feed.step chain detector action = some next) : Replay.replayCount next.sessions = 0 := by
  cases moves_of_sound sound taken with
  | land => exact none_replays
  | quiet dispatched held => exact none_replays
  | request position dispatched idle =>
      rw [Replay.replayCount, List.countP_cons, position, unset]
      exact none_replays
  | deliver sessions_eq offered dispatched held =>
      rw [sessions_eq, Replay.replayCount, List.countP_cons] at none_replays
      rw [Replay.replayCount, List.countP_cons]
      exact none_replays
  | handle sessions_eq holding single dispatched idle =>
      rw [sessions_eq, Replay.replayCount, List.countP_cons] at none_replays
      rw [Replay.replayCount, List.countP_cons]
      exact none_replays

/-- What the dispatched events of a run say about its transactions. -/
structure Counted (feed : Feed) (config : YureiConfig) : Prop where
  /-- Every dispatched event is booked to a transaction of a session. -/
  accounted : feed.client.dispatched =
    (feed.sessions.reverse.flatMap fun session => session.outcomes).map Prod.snd
  /-- A subscription makes at most one event of a transaction. -/
  once : ∀ session ∈ feed.sessions, ∀ index, session.outcomeCount index ≤ 1
  /-- All subscriptions together make at most one for each replay, or one. -/
  total : ∀ index, Replay.totalOutcomes feed.sessions index ≤ max 1 (Replay.replayCount feed.sessions)
  /-- Without a configured position there are no replays. -/
  unset : config.fromSlotSet = false → Replay.replayCount feed.sessions = 0

/-- Within a subscription a transaction leads to at most one event, and over a whole run to at most
one for each subscription that asked for a replay, or to one if at most one did. -/
theorem events_per_subscription (chain : ℕ → SubscribeUpdateTransaction)
    (detector : ProtocolDetector) (config : YureiConfig) (actions : List FeedAction) :
    Execution.Throughout (step chain detector) (fun feed => feed.Counted config) (start config)
      actions := by
  let invariant := fun feed : Feed => feed.Sound ∧ (config.fromSlotSet = false →
    feed.client.config.fromSlotSet = false ∧ Replay.replayCount feed.sessions = 0)
  have preserved : ∀ feed action next, invariant feed → step chain detector feed action =
      some next → invariant next := by
    rintro feed action next ⟨sound, quiet⟩ taken
    refine ⟨sound_step sound taken, fun unset => ?_⟩
    obtain ⟨unset, none_replays⟩ := quiet unset
    exact ⟨fromSlotSet_step taken unset, replayCount_step sound unset none_replays taken⟩
  have bounds : ∀ feed, invariant feed → feed.Counted config := by
    rintro feed ⟨sound, quiet⟩
    refine ⟨sound.accounted, fun session member => ?_, ?_, fun unset => (quiet unset).2⟩
    · exact (sound.sessions session member).outcomeCount_le_one
    · exact Replay.totalOutcomes_le sound.sessions sound.order
  exact Execution.throughout_of_invariant preserved bounds
    ⟨start_sound config, fun unset => ⟨unset, rfl⟩⟩ actions

/-- The step on which a delivered transaction is handled. -/
theorem step_handle {call : GrpcCall ServerMessage} {index : ℕ} {session : Session}
    {older : List Session} {calloc : Bool} {events : List Event}
    (here : feed.client.thread = .attempt call (.handle (.transaction index)))
    (current : feed.sessions = session :: older)
    (handled : handleTransaction detector calloc (some (chain index)) = .ok events) :
    feed.step chain detector (.client (.handle calloc)) =
      some { feed with
        client := { feed.client with
          thread := .attempt call .loop
          dispatched := feed.client.dispatched ++ events }
        sessions := session.book index events :: older } := by
  simp only [step, Client.step, here, ServerMessage.unpack, handled, settle,
    ClientAction.delivery?, observe, current, List.drop_left]

end Feed

/-- The updates of a chain on which every transaction has the trade of the samples. -/
def sampleTraded : SubscribeUpdateTransaction :=
  sampleUpdate (filledKey 1) [1] [programDataLine CString.empty (sampleTrade.encode ++ [])]

/-- A subscription delivers the transaction at place zero. -/
def deliverActions : List FeedAction :=
  [.client .advance, .client (.subscribe ⟨true, true, true⟩ true), .client .advance,
    .client (.next (.opComplete ⟨.handshake, true⟩) none), .client .advance,
    .client (.startReceive true), .client .advance,
    .client (.next (.opComplete ⟨.receive, true⟩) (some (.transaction 0)))]

/-- The transaction is handled, and the server ends the stream. -/
def cutActions : List FeedAction :=
  [.client .advance, .client (.startReceive true), .client (.serverEnds []), .client .advance,
    .client (.next (.opComplete ⟨.receive, true⟩) none), .client .advance,
    .client (.next (.opComplete ⟨.status, true⟩) none), .client .advance]

/-- The event of the transactions. -/
def sampleEvent : Event :=
  makeEvent true sampleTraded (.pumpfunTrade (sampleTrade.trade 7))

/-- A feed with one landed transaction and a client that asks for a replay from slot seven. -/
def replayingFeed (backoff : ℕ) (thread : GeyserThread ServerMessage) (dispatched : List Event)
    (sessions : List Session) : Feed where
  client := ⟨⟨true, 7⟩, true, backoff, thread, dispatched⟩
  landed := 1
  sessions := sessions

section Replay

variable {backoff : ℕ} {dispatched : List Event} {sessions : List Session}

theorem run_deliverActions :
    ∃ call, Execution.run (Feed.step (fun _ => sampleTraded) sampleDetector)
        (replayingFeed backoff .test dispatched sessions) deliverActions =
          some (replayingFeed backoff (.attempt call (.handle (.transaction 0))) dispatched
            (⟨some 7, 1, [0], []⟩ :: sessions)) ∧
      ∀ dispatched sessions, Execution.run (Feed.step (fun _ => sampleTraded) sampleDetector)
        (replayingFeed backoff (.attempt call .loop) dispatched sessions) cutActions =
          some (replayingFeed (Client.nextBackoff backoff true) .test dispatched sessions) :=
  ⟨_, rfl, fun _ _ => rfl⟩

theorem handleTransaction_sampleTraded :
    handleTransaction sampleDetector true (some sampleTraded) = .ok [sampleEvent] :=
  handleTransaction_sampleTrade [1]

end Replay

/-- A stream that is cut and replayed makes two events of one transaction. -/
theorem duplicate_after_replay :
    ∃ actions feed,
      Execution.run (Feed.step (fun _ => sampleTraded) sampleDetector) (Feed.start ⟨true, 7⟩)
        actions = some feed ∧ Replay.totalOutcomes feed.sessions 0 = 2 := by
  let booked : Session := Replay.Session.book ⟨some 7, 1, [0], []⟩ 0 [sampleEvent]
  obtain ⟨call, first, cut⟩ := @run_deliverActions 1 [] []
  obtain ⟨later, second, -⟩ := @run_deliverActions 1 [sampleEvent] [booked]
  refine ⟨.land :: (deliverActions ++ .client (.handle true) ::
      (cutActions ++ (deliverActions ++ [.client (.handle true)]))),
    replayingFeed 1 (.attempt later .loop) [sampleEvent, sampleEvent] [booked, booked], ?_, rfl⟩
  refine Execution.run_cons_eq_some.mpr ⟨replayingFeed 1 .test [] [], rfl, ?_⟩
  refine Execution.run_append_eq_some.mpr ⟨_, first, ?_⟩
  refine Execution.run_cons_eq_some.mpr
    ⟨_, Feed.step_handle rfl rfl handleTransaction_sampleTraded, ?_⟩
  refine Execution.run_append_eq_some.mpr ⟨_, cut _ _, ?_⟩
  refine Execution.run_append_eq_some.mpr ⟨_, second, ?_⟩
  exact Execution.run_cons_eq_some.mpr
    ⟨_, Feed.step_handle rfl rfl handleTransaction_sampleTraded, rfl⟩

end YureiGeyser
