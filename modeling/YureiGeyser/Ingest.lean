import YureiGeyser.GeyserClient

/-!
# What reaches the queue

The three stages of the ingest path (line search, Base64, parser) are composed here: what a
transaction with a PumpFun trade or a Raydium swap in its log makes the client dispatch, and what
the signature of a dispatched event says.
-/

namespace YureiGeyser

/-! ## Events -/

section Events

variable {calloc : Bool} {update : SubscribeUpdateTransaction}

@[simp] theorem makeEvent_data (data : EventData) :
    (makeEvent calloc update data).data = data := by
  rw [makeEvent]
  split
  · split
    · split <;> rfl
    · rfl
  · rfl

/-- The signature of an event is the text of the signature of its transaction, if that fits. -/
theorem makeEvent_signature {signature : List UInt8} (signed : update.signature = some signature)
    (nonempty : 0 < signature.length) (data : EventData) :
    (makeEvent calloc update data).signature =
      (Base58.base58Encode calloc signature maxSignatureLen).getD CString.empty := by
  obtain ⟨info, found, here⟩ := Option.bind_eq_some_iff.mp signed
  rw [makeEvent]
  split
  · next stored reached =>
      rw [found] at reached
      cases reached
      cases here
      rw [if_pos nonempty]
      split
      · next text encoded => simp only [encoded, Option.getD_some]
      · next encoded => simp only [encoded, Option.getD_none, Event.zero]
  · next absent =>
      exfalso
      cases info with
      | mk stored transaction statusMeta =>
          cases stored with
          | mk bytes =>
              change bytes = some signature at here
              rw [here] at found
              exact absent signature transaction statusMeta found

/-- The events of a transaction come from the loop over its log for one of the parsers. -/
theorem scanned_of_handleTransaction {detector : ProtocolDetector} {events : List Event}
    (handled : handleTransaction detector calloc (some update) = .ok events) :
    events = [] ∨ ∃ lines,
      scanLogMessages (parseTradeOf update) 768 calloc update lines = .ok events ∨
        scanLogMessages (parseSwapOf update) 512 calloc update lines = .ok events := by
  rw [handleTransaction_eq] at handled
  split at handled
  · rw [processPumpfun, processLogMessages_eq] at handled
    split at handled
    · next lines logged => exact .inr ⟨lines, .inl handled⟩
    · cases handled
      exact .inl rfl
  · rw [processRaydium, processLogMessages_eq] at handled
    split at handled
    · next lines logged => exact .inr ⟨lines, .inr handled⟩
    · cases handled
      exact .inl rfl
  · cases handled
    exact .inl rfl

/-- Every dispatched event carries the signature of its transaction. -/
theorem mem_handleTransaction {detector : ProtocolDetector} {events : List Event} {event : Event}
    (handled : handleTransaction detector calloc (some update) = .ok events)
    (member : event ∈ events) : ∃ data, event = makeEvent calloc update data := by
  rcases scanned_of_handleTransaction handled with rfl | ⟨lines, scanned | scanned⟩
  · cases member
  · obtain ⟨line, decoded, data, -, -, -, made⟩ := mem_scanLogMessages scanned member
    exact ⟨data, made⟩
  · obtain ⟨line, decoded, data, -, -, -, made⟩ := mem_scanLogMessages scanned member
    exact ⟨data, made⟩

/-- A transaction leads to at most one event. -/
theorem handleTransaction_length_le {detector : ProtocolDetector} {events : List Event}
    (handled : handleTransaction detector calloc (some update) = .ok events) :
    events.length ≤ 1 := by
  rcases scanned_of_handleTransaction handled with rfl | ⟨lines, scanned | scanned⟩
  · exact Nat.zero_le 1
  · exact scanLogMessages_length_le scanned
  · exact scanLogMessages_length_le scanned

end Events

/-- Dispatching to an open ring with room appends the event. -/
theorem dispatchEvent_of_room {capacity : ℕ} {queue : Queue} {channel : Channel Event capacity}
    (represents : queue.Represents channel) (opened : queue.closed = false)
    (room : queue.size < capacity) (event : Event) (metrics : Metrics) :
    ∃ queue' metrics', dispatchEvent event queue metrics = some (queue', metrics') ∧
      queue'.contents = queue.contents ++ [event] := by
  rw [represents.closed_eq] at opened
  rw [represents.size_eq] at room
  obtain ⟨next, pushed, items, -⟩ := Channel.push_of_room opened room event
  obtain ⟨queue', metrics', concrete, represents'⟩ :=
    Queue.exists_concrete (Queue.eventQueuePush_refines represents event metrics) pushed
  refine ⟨queue', metrics', ?_, ?_⟩
  · rw [dispatchEvent, concrete, Option.map_some]
  · rw [represents'.contents_eq, represents.contents_eq]
    exact items

/-! ## PumpFun -/

section Trade

variable {detector : ProtocolDetector} {calloc : Bool} {update : SubscribeUpdateTransaction}
  {layout : PumpfunTradeLayout} {suffix : List UInt8} {front : CString}
  {before after : List CString}

/-- The first line with a trade makes the only event. -/
theorem handleTransaction_programDataLine (bounded : (layout.encode ++ suffix).length ≤ 768)
    (detected : update.protocol detector = .pumpfun)
    (logged : update.logMessages =
      some (before ++ programDataLine front (layout.encode ++ suffix) :: after))
    (unmarked : ¬ programData.bytes <:+: front.bytes)
    (first : ∀ line ∈ before, ∀ decoded, decodeProgramDataLine line 768 = .ok (some decoded) →
      pumpfunParseTrade decoded = none) :
    handleTransaction detector calloc (some update) =
      .ok [makeEvent calloc update (.pumpfunTrade (layout.trade update.slotOrZero))] := by
  have nonempty : layout.encode ++ suffix ≠ [] := by
    intro empty
    have length := congrArg List.length empty
    rw [List.length_append, PumpfunTradeLayout.encode_length, PumpfunTradeLayout.size] at length
    simp at length
  -- 768 is a multiple of three, so the zero bytes of the padding still fit.
  have decodes : decodeProgramDataLine (programDataLine front (layout.encode ++ suffix)) 768 =
      .ok (some (layout.encode ++ (suffix ++
        List.replicate (Base64.padLength (layout.encode ++ suffix).length) 0))) := by
    rw [decodeProgramDataLine_programDataLine unmarked nonempty, Base64.base64Decode_encode,
      if_neg (by omega), if_pos (by rw [Base64.padLength]; omega), List.append_assoc]
  have parses : ∀ zeros : List UInt8, parseTradeOf update (layout.encode ++ (suffix ++ zeros)) =
      some (.pumpfunTrade (layout.trade update.slotOrZero)) := by
    intro zeros
    rw [parseTradeOf, pumpfunParseTrade_encode]
    rfl
  have skipped : ∀ line ∈ before, Skipped (parseTradeOf update) 768 line := by
    intro line member
    obtain ⟨result, decoded⟩ := decodeProgramDataLine_ok line (show 768 % 3 = 0 from rfl)
    refine ⟨result, decoded, ?_⟩
    rintro bytes rfl
    rw [parseTradeOf, first line member bytes decoded, Option.map_none]
  rw [handleTransaction_eq, detected]
  simp only
  rw [processPumpfun, processLogMessages_eq, logged]
  simp only
  rw [scanLogMessages_append skipped, scanLogMessages, decodes]
  simp only [parses]

/-- A trade in the log of a PumpFun transaction is dispatched with all its fields, as the only
event, and an open ring with room stores it. -/
theorem handleTransaction_trade (bounded : (layout.encode ++ suffix).length ≤ 768)
    (detected : update.protocol detector = .pumpfun)
    (logged : update.logMessages =
      some (before ++ programDataLine front (layout.encode ++ suffix) :: after))
    (unmarked : ¬ programData.bytes <:+: front.bytes)
    (first : ∀ line ∈ before, ∀ decoded, decodeProgramDataLine line 768 = .ok (some decoded) →
      pumpfunParseTrade decoded = none) :
    ∃ event, handleTransaction detector calloc (some update) = .ok [event] ∧
      event.data = .pumpfunTrade (layout.trade update.slotOrZero) ∧
      ∀ (capacity : ℕ) (channel : Channel Event capacity) (queue : Queue) (metrics : Metrics),
        queue.Represents channel → queue.closed = false → queue.size < capacity →
          ∃ queue' metrics', dispatchEvent event queue metrics = some (queue', metrics') ∧
            queue'.contents = queue.contents ++ [event] := by
  refine ⟨_, handleTransaction_programDataLine bounded detected logged unmarked first,
    makeEvent_data _, ?_⟩
  intro capacity channel queue metrics represents opened room
  exact dispatchEvent_of_room represents opened room _ metrics

end Trade

/-- The key of 32 equal bytes. -/
def filledKey (byte : UInt8) : Pubkey where
  bytes := List.replicate 32 byte
  width := by simp

/-- A detector for one-filled PumpFun and two-filled Raydium programs. -/
def sampleDetector : ProtocolDetector :=
  protocolDetectorInit (filledKey 1) true (filledKey 2) true

/-- An update with one account key and a log. -/
def sampleUpdate (program : Pubkey) (signature : List UInt8) (lines : List CString) :
    SubscribeUpdateTransaction where
  transaction := some
    { signature := ⟨some signature⟩
      transaction := some ⟨some ⟨some [⟨some program.bytes⟩]⟩⟩
      statusMeta := some ⟨some lines⟩ }
  hasSlot := true
  slot := 7

/-- A trade of distinct amounts. -/
def sampleTrade : PumpfunTradeLayout :=
  ⟨filledKey 3, 11, 12, 1, filledKey 4, -13, 14, 15, 16, 17, filledKey 5, 18, 19, filledKey 6, 20, 21,
    0, 22, 23, 24, -25⟩

/-- A trade and one more byte behind another line. -/
theorem handleTransaction_trade_sample :
    ∃ event, handleTransaction sampleDetector true
        (some (sampleUpdate (filledKey 1) [1] ([programData] ++
          programDataLine CString.empty (sampleTrade.encode ++ [9]) :: []))) = .ok [event] ∧
      event.data = .pumpfunTrade (sampleTrade.trade 7) ∧
      ∀ (capacity : ℕ) (channel : Channel Event capacity) (queue : Queue) (metrics : Metrics),
        queue.Represents channel → queue.closed = false → queue.size < capacity →
          ∃ queue' metrics', dispatchEvent event queue metrics = some (queue', metrics') ∧
            queue'.contents = queue.contents ++ [event] := by
  refine handleTransaction_trade ?_ (by decide) rfl (by decide) ?_
  · rw [List.length_append, PumpfunTradeLayout.encode_length]
    decide
  · intro line member decoded decodes
    obtain rfl := List.mem_singleton.mp member
    have nothing : decodeProgramDataLine programData 768 = .ok none := by decide
    rw [nothing] at decodes
    cases decodes

/-! ## Raydium -/

/-- A swap among the dispatched events has all the fields of a record. -/
def SwapIngested (detector : ProtocolDetector) (calloc : Bool) (update : SubscribeUpdateTransaction)
    (record : RaydiumSwapRecord) : Prop :=
  ∃ events event, handleTransaction detector calloc (some update) = .ok events ∧ event ∈ events ∧
    event.data = .raydiumSwap { record.swap with slot := update.slotOrZero }

/-- The decoding buffer of 512 bytes has no room for the 577 bytes of a swap. -/
theorem not_parseSwapOf {update : SubscribeUpdateTransaction} {line : CString} {decoded : List UInt8}
    (decodes : decodeProgramDataLine line 512 = .ok (some decoded)) :
    parseSwapOf update decoded = none := by
  rw [parseSwapOf, Option.map_eq_none_iff]
  by_contra accepted
  obtain ⟨swap, parsed⟩ := Option.ne_none_iff_exists'.mp accepted
  have complete := swapLength_le_of_raydiumParseSwap parsed
  have minimum := (swapLength_bounds decoded).1
  have fits := length_le_of_decodeProgramDataLine decodes
  omega

/-- Whatever the client dispatches is a trade. -/
theorem exists_trade_of_mem {detector : ProtocolDetector} {events : List Event} {event : Event}
    {calloc : Bool} {update : SubscribeUpdateTransaction}
    (handled : handleTransaction detector calloc (some update) = .ok events)
    (member : event ∈ events) : ∃ trade, event.data = .pumpfunTrade trade := by
  rcases scanned_of_handleTransaction handled with rfl | ⟨lines, scanned | scanned⟩
  · cases member
  · obtain ⟨line, decoded, data, -, -, parsed, rfl⟩ := mem_scanLogMessages scanned member
    obtain ⟨trade, -, rfl⟩ := Option.map_eq_some_iff.mp parsed
    exact ⟨_, makeEvent_data _⟩
  · obtain ⟨line, decoded, data, -, decodes, parsed, -⟩ := mem_scanLogMessages scanned member
    rw [not_parseSwapOf decodes] at parsed
    cases parsed

/-- Whatever the transaction, the detector and the record are, the swap is not ingested. -/
theorem not_swapIngested (detector : ProtocolDetector) (calloc : Bool)
    (update : SubscribeUpdateTransaction) (record : RaydiumSwapRecord) :
    ¬ SwapIngested detector calloc update record := by
  rintro ⟨events, event, handled, member, swap⟩
  obtain ⟨trade, data⟩ := exists_trade_of_mem handled member
  rw [data] at swap
  cases swap

/-- A swap without a target key. -/
def sampleSwap : RaydiumSwapRecord where
  amountIn := 31
  minimumAmountOut := 32
  maxAmountIn := 33
  amountOut := 34
  tokenProgram := filledKey 1
  amm := filledKey 2
  ammAuthority := filledKey 3
  ammOpenOrders := filledKey 4
  hasTarget := 0
  target := none
  announced := by decide
  poolCoin := filledKey 5
  poolPc := filledKey 6
  serumProgram := filledKey 7
  serumMarket := filledKey 8
  serumBids := filledKey 9
  serumAsks := filledKey 10
  serumEventQueue := filledKey 11
  serumCoinVault := filledKey 12
  serumPcVault := filledKey 13
  serumSigner := filledKey 14
  userSource := filledKey 15
  userDestination := filledKey 16
  userOwner := filledKey 17

/-- A transaction of the Raydium program whose only log line holds an acceptable record. -/
theorem sampleSwap_not_ingested :
    let update :=
      sampleUpdate (filledKey 2) [1] [programDataLine CString.empty sampleSwap.encode]
    raydiumParseSwap sampleSwap.encode = some sampleSwap.swap ∧
      update.protocol sampleDetector = .raydium ∧
      ¬ SwapIngested sampleDetector true update sampleSwap := by
  have parsed := sampleSwap.raydiumParseSwap_encode []
  rw [List.append_nil] at parsed
  refine ⟨parsed, by decide, ?_⟩
  rintro ⟨events, event, handled, member, swap⟩
  obtain ⟨trade, data⟩ := exists_trade_of_mem handled member
  rw [data] at swap
  cases swap

/-! ## Signatures -/

/-- The signature of an event is the Base58 text of a signature, and it decodes to it. -/
def SignatureKept (event : Event) (signature : List UInt8) : Prop :=
  Base58.base58Encode true signature maxSignatureLen = some event.signature ∧
    Base58.base58Decode true event.signature 64 = some signature

theorem signatureKept_makeEvent_iff {update : SubscribeUpdateTransaction} {signature : List UInt8}
    (signed : update.signature = some signature) (width : signature.length = 64)
    (data : EventData) :
    SignatureKept (makeEvent true update data) signature ↔
      (Base58.base58Encode true signature maxSignatureLen).isSome := by
  have text : (makeEvent true update data).signature = _ :=
    makeEvent_signature signed (by omega) data
  rw [SignatureKept, text]
  cases encoded : Base58.base58Encode true signature maxSignatureLen with
  | none => simp
  | some text =>
      have decoded := Base58.base58Decode_base58Encode encoded width.le
      simp [decoded]

/-- The signature of a dispatched event is kept exactly when its value is below the power of 58
whose exponent is what the leading zero bytes leave of the 87 letters. -/
theorem signatureKept_iff {detector : ProtocolDetector} {update : SubscribeUpdateTransaction}
    {signature : List UInt8} {events : List Event} {event : Event}
    (signed : update.signature = some signature) (width : signature.length = 64)
    (handled : handleTransaction detector true (some update) = .ok events)
    (member : event ∈ events) :
    SignatureKept event signature ↔
      Positional.bytesValue signature < 58 ^ (87 - Base58.leading 0 signature) := by
  obtain ⟨data, rfl⟩ := mem_handleTransaction handled member
  have leading_le := Base58.leading_le_length 0 signature
  rw [signatureKept_makeEvent_iff signed width, Base58.base58Encode_isSome_iff]
  · rfl
  · rw [maxSignatureLen]
    omega

/-- A transaction with a trade and a given signature makes one event. -/
theorem handleTransaction_sampleTrade (signature : List UInt8) :
    handleTransaction sampleDetector true (some (sampleUpdate (filledKey 1) signature
        [programDataLine CString.empty (sampleTrade.encode ++ [])])) =
      .ok [makeEvent true (sampleUpdate (filledKey 1) signature
          [programDataLine CString.empty (sampleTrade.encode ++ [])])
        (.pumpfunTrade (sampleTrade.trade 7))] := by
  have bounded : (sampleTrade.encode ++ []).length ≤ 768 := by
    rw [List.append_nil, PumpfunTradeLayout.encode_length]
    decide
  have logged : (sampleUpdate (filledKey 1) signature
      [programDataLine CString.empty (sampleTrade.encode ++ [])]).logMessages =
        some ([] ++ programDataLine CString.empty (sampleTrade.encode ++ []) :: []) := rfl
  exact handleTransaction_programDataLine bounded rfl logged (by decide) (by simp)

/-- A signature of ones is kept. -/
theorem signatureKept_iff_ones :
    ∃ event, handleTransaction sampleDetector true (some (sampleUpdate (filledKey 1)
        (List.replicate 64 1) [programDataLine CString.empty (sampleTrade.encode ++ [])])) =
        .ok [event] ∧
      (SignatureKept event (List.replicate 64 1) ↔
        Positional.bytesValue (List.replicate 64 1) <
          58 ^ (87 - Base58.leading 0 (List.replicate 64 1))) :=
  ⟨_, handleTransaction_sampleTrade (List.replicate 64 1),
    signatureKept_iff rfl rfl (handleTransaction_sampleTrade (List.replicate 64 1))
      List.mem_cons_self⟩

/-- The largest signature has 88 letters, which leave no room for the terminator. -/
theorem not_signatureKept_largest :
    ∃ event, handleTransaction sampleDetector true (some (sampleUpdate (filledKey 1)
        (List.replicate 64 255) [programDataLine CString.empty (sampleTrade.encode ++ [])])) =
        .ok [event] ∧
      ¬ SignatureKept event (List.replicate 64 255) := by
  refine ⟨_, handleTransaction_sampleTrade (List.replicate 64 255), ?_⟩
  rw [signatureKept_makeEvent_iff rfl rfl, Base58.base58Encode_isSome_iff]
  · decide +kernel
  · decide +kernel

end YureiGeyser
