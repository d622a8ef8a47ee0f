import YureiGeyser.Base58
import YureiGeyser.Base64Codec
import YureiGeyser.EventQueue
import YureiGeyser.ProtocolDetector
import YureiGeyser.PumpfunParser
import YureiGeyser.RaydiumParser

/-!
# Transactions in `geyser_client.c`

`handleTransaction` gives the events for which `dispatch_event` is called, in order.  The unpacked
protobuf messages carry the fields that the client reads; a null pointer is `none`.
-/

namespace YureiGeyser

/-- `ProtobufCBinaryData`. -/
structure BinaryData where
  data : Option (List UInt8)
  deriving DecidableEq

/-- `Solana__Storage__ConfirmedBlock__Message`. -/
structure Message where
  accountKeys : Option (List BinaryData)

/-- `Solana__Storage__ConfirmedBlock__Transaction`. -/
structure Transaction where
  message : Option Message

/-- `Solana__Storage__ConfirmedBlock__TransactionStatusMeta`. -/
structure TransactionStatusMeta where
  logMessages : Option (List CString)

/-- `Geyser__SubscribeUpdateTransactionInfo`. -/
structure SubscribeUpdateTransactionInfo where
  signature : BinaryData
  transaction : Option Transaction
  statusMeta : Option TransactionStatusMeta

/-- `Geyser__SubscribeUpdateTransaction`. -/
structure SubscribeUpdateTransaction where
  transaction : Option SubscribeUpdateTransactionInfo
  hasSlot : Bool
  slot : UInt64

/-- The text that starts a program data line. -/
def programData : CString where
  bytes := ascii "Program data: "
  noNul := by decide +kernel

/-- `decode_program_data_line` into a buffer of `bufLen` bytes. -/
def decodeProgramDataLine (line : CString) (bufLen : ℕ) : Except Fault (Option (List UInt8)) :=
  match line.strstr programData with
  | none => .ok none
  | some pos =>
      let pos := pos.drop programData.strlen
      if pos.length = 0 then .ok none else Base64.base64Decode pos bufLen

/-- `dispatch_event`: no result while the push waits for room. -/
def dispatchEvent (event : Event) (queue : Queue) (metrics : Metrics) : Option (Queue × Metrics) :=
  (eventQueuePush event queue metrics).map fun (_pushed, shared) => shared

/-- The event that carries a trade or a swap of a transaction. -/
def makeEvent (calloc : Bool) (txUpdate : SubscribeUpdateTransaction) (data : EventData) : Event :=
  match txUpdate.transaction with
  | some { signature := { data := some signature }, .. } =>
      if signature.length > 0 then
        match encoded : Base58.base58Encode calloc signature maxSignatureLen with
        | some text => { signature := text, terminated := Base58.base58Encode_strlen_lt encoded, data }
        | none => { Event.zero with data }
      else
        { Event.zero with data }
  | _ => { Event.zero with data }

/-- The slot of an update. -/
def SubscribeUpdateTransaction.slotOrZero (txUpdate : SubscribeUpdateTransaction) : UInt64 :=
  if txUpdate.hasSlot then txUpdate.slot else 0

/-- The loop over the log messages: the first line that decodes and parses is dispatched. -/
def scanLogMessages (parse : List UInt8 → Option EventData) (bufLen : ℕ) (calloc : Bool)
    (txUpdate : SubscribeUpdateTransaction) : List CString → Except Fault (List Event)
  | [] => .ok []
  | line :: lines =>
      match decodeProgramDataLine line bufLen with
      | .error fault => .error fault
      | .ok none => scanLogMessages parse bufLen calloc txUpdate lines
      | .ok (some decoded) =>
          match parse decoded with
          | none => scanLogMessages parse bufLen calloc txUpdate lines
          | some data => .ok [makeEvent calloc txUpdate data]

/-- What both processors do with the meta data of a transaction. -/
def processLogMessages (parse : List UInt8 → Option EventData) (bufLen : ℕ) (calloc : Bool)
    (txUpdate : SubscribeUpdateTransaction) (statusMeta : Option TransactionStatusMeta) :
    Except Fault (List Event) :=
  match statusMeta with
  | some { logMessages := some lines } => scanLogMessages parse bufLen calloc txUpdate lines
  | _ => .ok []

/-- The trade of a decoded line, with the slot of its transaction. -/
def parseTradeOf (txUpdate : SubscribeUpdateTransaction) (decoded : List UInt8) :
    Option EventData :=
  (pumpfunParseTrade decoded).map fun trade =>
    .pumpfunTrade { trade with slot := txUpdate.slotOrZero }

/-- The swap of a decoded line, with the slot of its transaction. -/
def parseSwapOf (txUpdate : SubscribeUpdateTransaction) (decoded : List UInt8) :
    Option EventData :=
  (raydiumParseSwap decoded).map fun swap =>
    .raydiumSwap { swap with slot := txUpdate.slotOrZero }

/-- `process_pumpfun`. -/
def processPumpfun (calloc : Bool) (txUpdate : SubscribeUpdateTransaction)
    (statusMeta : Option TransactionStatusMeta) : Except Fault (List Event) :=
  processLogMessages (parseTradeOf txUpdate) 768 calloc txUpdate statusMeta

/-- `process_raydium`. -/
def processRaydium (calloc : Bool) (txUpdate : SubscribeUpdateTransaction)
    (statusMeta : Option TransactionStatusMeta) : Except Fault (List Event) :=
  processLogMessages (parseSwapOf txUpdate) 512 calloc txUpdate statusMeta

/-- `handle_transaction`. -/
def handleTransaction (detector : ProtocolDetector) (calloc : Bool)
    (transaction : Option SubscribeUpdateTransaction) : Except Fault (List Event) :=
  match transaction with
  | none => .ok []
  | some update =>
  match update.transaction with
  | none => .ok []
  | some info =>
  match info.transaction with
  | none => .ok []
  | some solTx =>
  match solTx.message with
  | none => .ok []
  | some msg =>
  match msg.accountKeys with
  | none => .ok []
  | some accountKeys =>
      let accounts := (accountKeys.take 256).map BinaryData.data
      match protocolDetectorMatchAccounts detector accounts with
      | .pumpfun => processPumpfun calloc update info.statusMeta
      | .raydium => processRaydium calloc update info.statusMeta
      | .none => .ok []

/-! ## Lines -/

/-- A log line with the encoding of a payload behind the marker. -/
def programDataLine (front : CString) (payload : List UInt8) : CString :=
  front ++ programData ++ { bytes := Base64.encode payload, noNul := Base64.encode_ne_zero payload }

/-- The marker is found where it was written. -/
theorem strstr_programDataLine {front : CString} {payload : List UInt8}
    (unmarked : ¬ programData.bytes <:+: front.bytes) :
    (programDataLine front payload).strstr programData =
      some (programData.bytes ++ Base64.encode payload) := by
  have borderless : Search.Borderless programData.bytes := by decide
  rw [CString.strstr, programDataLine, CString.bytes_append, CString.bytes_append,
    List.append_assoc]
  exact Search.suffixFrom_append borderless front.bytes (Base64.encode payload) unmarked

/-- The text behind the marker is decoded. -/
theorem decodeProgramDataLine_programDataLine {front : CString} {payload : List UInt8}
    (unmarked : ¬ programData.bytes <:+: front.bytes) (nonempty : payload ≠ []) (bufLen : ℕ) :
    decodeProgramDataLine (programDataLine front payload) bufLen =
      Base64.base64Decode (Base64.encode payload) bufLen := by
  have positive : 0 < payload.length := List.length_pos_of_ne_nil nonempty
  have length := Base64.encode_length payload
  rw [decodeProgramDataLine, strstr_programDataLine unmarked]
  simp only [CString.strlen, List.drop_left]
  rw [if_neg (by omega)]

/-- What a line decodes to fits into the buffer. -/
theorem length_le_of_decodeProgramDataLine {line : CString} {bufLen : ℕ} {decoded : List UInt8}
    (decodes : decodeProgramDataLine line bufLen = .ok (some decoded)) :
    decoded.length ≤ bufLen := by
  rw [decodeProgramDataLine] at decodes
  split at decodes
  · cases decodes
  · next pos found =>
      dsimp only at decodes
      split at decodes
      · cases decodes
      · rw [Base64.base64Decode_eq] at decodes
        split at decodes
        · cases decodes
        · split at decodes
          · next fits =>
              cases decodes
              rw [Base64.emitted_length]
              exact fits
          · cases decodes

/-- A buffer whose size is a multiple of three is never overrun. -/
theorem decodeProgramDataLine_ok (line : CString) {bufLen : ℕ} (multiple : bufLen % 3 = 0) :
    ∃ result, decodeProgramDataLine line bufLen = .ok result := by
  rw [decodeProgramDataLine]
  split
  · exact ⟨none, rfl⟩
  · next pos found =>
      dsimp only
      split
      · exact ⟨none, rfl⟩
      · rw [Base64.base64Decode_eq]
        split
        · exact ⟨none, rfl⟩
        · next estimate =>
            have counted := Base64.symbols_length_add_ignoredCount (pos.drop programData.strlen)
            have padding := Base64.trailingPadding_le (pos.drop programData.strlen)
            rw [Base64.base64DecodedSize] at estimate
            rw [if_pos (by omega)]
            exact ⟨_, rfl⟩

/-! ## The loop over the lines -/

section Scan

variable {parse : List UInt8 → Option EventData} {bufLen : ℕ} {calloc : Bool}
  {txUpdate : SubscribeUpdateTransaction}

/-- The loop passes over a line. -/
def Skipped (parse : List UInt8 → Option EventData) (bufLen : ℕ) (line : CString) : Prop :=
  ∃ result, decodeProgramDataLine line bufLen = .ok result ∧
    ∀ decoded, result = some decoded → parse decoded = none

theorem scanLogMessages_skipped {line : CString} (skipped : Skipped parse bufLen line)
    (lines : List CString) :
    scanLogMessages parse bufLen calloc txUpdate (line :: lines) =
      scanLogMessages parse bufLen calloc txUpdate lines := by
  obtain ⟨result, decodes, refused⟩ := skipped
  rw [scanLogMessages, decodes]
  cases result with
  | none => rfl
  | some decoded => simp only [refused decoded rfl]

theorem scanLogMessages_append {front : List CString}
    (skipped : ∀ line ∈ front, Skipped parse bufLen line) (back : List CString) :
    scanLogMessages parse bufLen calloc txUpdate (front ++ back) =
      scanLogMessages parse bufLen calloc txUpdate back := by
  induction front with
  | nil => rfl
  | cons line front ih =>
      rw [List.cons_append, scanLogMessages_skipped (skipped line List.mem_cons_self)]
      exact ih fun later member => skipped later (List.mem_cons_of_mem line member)

/-- Every dispatched event comes from a line that decodes and parses. -/
theorem mem_scanLogMessages {lines : List CString} {events : List Event} {event : Event}
    (scanned : scanLogMessages parse bufLen calloc txUpdate lines = .ok events)
    (member : event ∈ events) :
    ∃ line decoded data, line ∈ lines ∧ decodeProgramDataLine line bufLen = .ok (some decoded) ∧
      parse decoded = some data ∧ event = makeEvent calloc txUpdate data := by
  induction lines with
  | nil =>
      cases scanned
      cases member
  | cons line lines ih =>
      rw [scanLogMessages] at scanned
      split at scanned
      · cases scanned
      · obtain ⟨later, decoded, data, inside, rest⟩ := ih scanned
        exact ⟨later, decoded, data, List.mem_cons_of_mem line inside, rest⟩
      · next decoded decodes =>
          split at scanned
          · obtain ⟨later, decoded, data, inside, rest⟩ := ih scanned
            exact ⟨later, decoded, data, List.mem_cons_of_mem line inside, rest⟩
          · next data parsed =>
              cases scanned
              exact ⟨line, decoded, data, List.mem_cons_self, decodes, parsed,
                List.mem_singleton.mp member⟩

/-- The loop ends with the first event. -/
theorem scanLogMessages_length_le {lines : List CString} {events : List Event}
    (scanned : scanLogMessages parse bufLen calloc txUpdate lines = .ok events) :
    events.length ≤ 1 := by
  induction lines with
  | nil =>
      cases scanned
      exact Nat.zero_le 1
  | cons line lines ih =>
      rw [scanLogMessages] at scanned
      split at scanned
      · cases scanned
      · exact ih scanned
      · split at scanned
        · exact ih scanned
        · cases scanned
          exact le_rfl

end Scan

/-! ## Messages -/

namespace SubscribeUpdateTransaction

/-- The account keys of the message, unless a pointer on the way is null. -/
def accountKeys (update : SubscribeUpdateTransaction) : Option (List BinaryData) := do
  let info ← update.transaction
  let solTx ← info.transaction
  let msg ← solTx.message
  msg.accountKeys

/-- The log messages, unless a pointer on the way is null. -/
def logMessages (update : SubscribeUpdateTransaction) : Option (List CString) := do
  let info ← update.transaction
  let statusMeta ← info.statusMeta
  statusMeta.logMessages

/-- The signature, unless a pointer on the way is null. -/
def signature (update : SubscribeUpdateTransaction) : Option (List UInt8) := do
  let info ← update.transaction
  info.signature.data

/-- The protocol that the detector finds among the first 256 account keys. -/
def protocol (update : SubscribeUpdateTransaction) (detector : ProtocolDetector) : Protocol :=
  match update.accountKeys with
  | none => .none
  | some keys => protocolDetectorMatchAccounts detector ((keys.take 256).map BinaryData.data)

end SubscribeUpdateTransaction

/-- What the handler does with a transaction of each protocol. -/
theorem handleTransaction_eq (detector : ProtocolDetector) (calloc : Bool)
    (update : SubscribeUpdateTransaction) :
    handleTransaction detector calloc (some update) =
      match update.protocol detector with
      | .pumpfun => processPumpfun calloc update (update.transaction.bind (·.statusMeta))
      | .raydium => processRaydium calloc update (update.transaction.bind (·.statusMeta))
      | .none => .ok [] := by
  rw [SubscribeUpdateTransaction.protocol, SubscribeUpdateTransaction.accountKeys, handleTransaction]
  cases update.transaction with
  | none => rfl
  | some info =>
      cases found : info.transaction with
      | none => simp only [Option.bind_eq_bind, Option.bind_some, found, Option.bind_none]
      | some solTx =>
          simp only [Option.bind_eq_bind, Option.bind_some, found]
          cases solTx.message with
          | none => rfl
          | some msg =>
              simp only [Option.bind_some]
              cases msg.accountKeys with
              | none => rfl
              | some keys => rfl

theorem processLogMessages_eq (parse : List UInt8 → Option EventData) (bufLen : ℕ) (calloc : Bool)
    (update : SubscribeUpdateTransaction) :
    processLogMessages parse bufLen calloc update (update.transaction.bind (·.statusMeta)) =
      match update.logMessages with
      | some lines => scanLogMessages parse bufLen calloc update lines
      | none => .ok [] := by
  rw [processLogMessages.eq_def, SubscribeUpdateTransaction.logMessages]
  cases update.transaction with
  | none => rfl
  | some info =>
      simp only [Option.bind_eq_bind, Option.bind_some]
      cases info.statusMeta with
      | none => rfl
      | some statusMeta =>
          simp only [Option.bind_some]
          cases statusMeta with
          | mk lines => cases lines <;> rfl

end YureiGeyser
