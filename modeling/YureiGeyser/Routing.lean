import YureiGeyser.Ingest

/-!
# Protocol routing

The detector returns one protocol, that of the first account key which is an enabled program id,
and the handler runs one processor.  The order of the keys matters only for messages with both
program ids.
-/

namespace YureiGeyser

/-- The `switch` over the protocol of a transaction. -/
def runProcessor (protocol : Protocol) (calloc : Bool) (update : SubscribeUpdateTransaction) :
    Except Fault (List Event) :=
  let statusMeta := update.transaction.bind (·.statusMeta)
  match protocol with
  | .pumpfun => processPumpfun calloc update statusMeta
  | .raydium => processRaydium calloc update statusMeta
  | .none => .ok []

/-- The protocol of one account key. -/
def ProtocolDetector.protocolOf (detector : ProtocolDetector) (key : BinaryData) : Protocol :=
  if detector.pumpfun.enabled = true ∧ key.data = some detector.pumpfun.programId.bytes then
    .pumpfun
  else if detector.raydium.enabled = true ∧ key.data = some detector.raydium.programId.bytes then
    .raydium
  else .none

/-- The enabled program id is one of the keys. -/
def ProtocolPattern.Among (pattern : ProtocolPattern) (keys : List BinaryData) : Prop :=
  pattern.enabled = true ∧ ∃ key ∈ keys, key.data = some pattern.programId.bytes

/-- The same update with other account keys in its message. -/
def SubscribeUpdateTransaction.withAccountKeys (update : SubscribeUpdateTransaction)
    (keys : List BinaryData) : SubscribeUpdateTransaction :=
  { update with
    transaction := update.transaction.map fun info =>
      { info with
        transaction := info.transaction.map fun solTx =>
          { solTx with message := solTx.message.map fun _ => ⟨some keys⟩ } } }

/-! ## The detector -/

section Detector

variable {detector : ProtocolDetector}

theorem accountMatches_iff (pattern : ProtocolPattern) (account : List UInt8) :
    accountMatches pattern account = true ↔
      pattern.enabled = true ∧ account = pattern.programId.bytes := by
  have width := pattern.programId.width
  rw [accountMatches, programIdLen, memcmpEq, Bool.and_eq_true, Bool.and_eq_true, beq_iff_eq,
    beq_iff_eq, and_assoc]
  refine and_congr_right fun _ => ?_
  constructor
  · rintro ⟨length, same⟩
    rwa [List.take_of_length_le length.le, List.take_of_length_le width.le] at same
  · rintro rfl
    exact ⟨width, rfl⟩

/-- The first protocol that one of the keys has. -/
def ProtocolDetector.firstProtocol (detector : ProtocolDetector) (keys : List BinaryData) :
    Protocol :=
  ((keys.map detector.protocolOf).find? (· ≠ .none)).getD .none

theorem protocolDetectorMatchAccounts_eq (keys : List BinaryData) :
    protocolDetectorMatchAccounts detector (keys.map BinaryData.data) =
      detector.firstProtocol keys := by
  induction keys with
  | nil => rfl
  | cons key keys ih =>
      rw [List.map_cons, ProtocolDetector.firstProtocol, List.map_cons]
      rw [ProtocolDetector.firstProtocol] at ih
      cases data : key.data with
      | none =>
          have other : detector.protocolOf key = .none := by
            rw [ProtocolDetector.protocolOf, data]
            simp
          rw [protocolDetectorMatchAccounts, ih, other]
          rfl
      | some account =>
          have answer : detector.protocolOf key =
              if accountMatches detector.pumpfun account then .pumpfun
              else if accountMatches detector.raydium account then .raydium else .none := by
            simp only [ProtocolDetector.protocolOf, data, accountMatches_iff, Option.some.injEq]
          have unmatched : ∀ pattern : ProtocolPattern, account.length = 0 →
              accountMatches pattern account = false := by
            intro pattern empty
            rw [accountMatches, empty]
            exact Bool.and_eq_false_imp.mpr fun absurd => by simp [programIdLen] at absurd
          rw [protocolDetectorMatchAccounts, answer, ih]
          by_cases empty : account.length = 0
          · rw [if_pos empty, unmatched _ empty, unmatched _ empty]
            rfl
          · rw [if_neg empty]
            cases accountMatches detector.pumpfun account with
            | true => rfl
            | false => cases accountMatches detector.raydium account <;> rfl

/-! ## Which processors run -/

theorem protocolOf_eq_pumpfun_iff (key : BinaryData) :
    detector.protocolOf key = .pumpfun ↔
      detector.pumpfun.enabled = true ∧ key.data = some detector.pumpfun.programId.bytes := by
  rw [ProtocolDetector.protocolOf]
  split
  · next matched => exact iff_of_true rfl matched
  · next other =>
      refine iff_of_false ?_ other
      split <;> exact Protocol.noConfusion

theorem protocolOf_eq_none_iff (key : BinaryData) :
    detector.protocolOf key = .none ↔
      ¬ (detector.pumpfun.enabled = true ∧ key.data = some detector.pumpfun.programId.bytes) ∧
      ¬ (detector.raydium.enabled = true ∧ key.data = some detector.raydium.programId.bytes) := by
  rw [ProtocolDetector.protocolOf]
  split
  · next matched => exact iff_of_false Protocol.noConfusion fun neither => neither.1 matched
  · next other =>
      split
      · next matched => exact iff_of_false Protocol.noConfusion fun neither => neither.2 matched
      · next neither => exact iff_of_true rfl ⟨other, neither⟩

theorem exists_of_firstProtocol {keys : List BinaryData}
    (found : detector.firstProtocol keys ≠ .none) :
    ∃ key ∈ keys, detector.protocolOf key = detector.firstProtocol keys := by
  rw [ProtocolDetector.firstProtocol] at found ⊢
  cases search : (keys.map detector.protocolOf).find? (· ≠ .none) with
  | none =>
      rw [search] at found
      exact absurd rfl found
  | some protocol =>
      obtain ⟨key, member, same⟩ := List.mem_map.mp (List.mem_of_find?_eq_some search)
      exact ⟨key, member, same⟩

theorem firstProtocol_eq_none_iff (keys : List BinaryData) :
    detector.firstProtocol keys = .none ↔
      ¬ detector.pumpfun.Among keys ∧ ¬ detector.raydium.Among keys := by
  constructor
  · intro nothing
    have unmatched : ∀ key ∈ keys, detector.protocolOf key = .none := by
      rw [ProtocolDetector.firstProtocol] at nothing
      cases search : (keys.map detector.protocolOf).find? (· ≠ .none) with
      | none =>
          intro key member
          have refused := List.find?_eq_none.mp search _ (List.mem_map_of_mem member)
          simpa using refused
      | some protocol =>
          rw [search, Option.getD_some] at nothing
          have found := List.find?_some search
          rw [nothing] at found
          simp at found
    constructor
    · rintro ⟨enabled, key, member, here⟩
      exact ((protocolOf_eq_none_iff key).mp (unmatched key member)).1 ⟨enabled, here⟩
    · rintro ⟨enabled, key, member, here⟩
      exact ((protocolOf_eq_none_iff key).mp (unmatched key member)).2 ⟨enabled, here⟩
  · rintro ⟨noPumpfun, noRaydium⟩
    by_contra found
    obtain ⟨key, member, same⟩ := exists_of_firstProtocol found
    rw [← same] at found
    refine found ((protocolOf_eq_none_iff key).mpr ⟨?_, ?_⟩)
    · exact fun matched => noPumpfun ⟨matched.1, key, member, matched.2⟩
    · exact fun matched => noRaydium ⟨matched.1, key, member, matched.2⟩

theorem among_of_firstProtocol_eq_pumpfun {keys : List BinaryData}
    (found : detector.firstProtocol keys = .pumpfun) : detector.pumpfun.Among keys := by
  obtain ⟨key, member, same⟩ := exists_of_firstProtocol (by rw [found]; exact Protocol.noConfusion)
  obtain ⟨enabled, here⟩ := (protocolOf_eq_pumpfun_iff key).mp (same.trans found)
  exact ⟨enabled, key, member, here⟩

theorem among_of_firstProtocol_eq_raydium {keys : List BinaryData}
    (found : detector.firstProtocol keys = .raydium) : detector.raydium.Among keys := by
  obtain ⟨key, member, same⟩ := exists_of_firstProtocol (by rw [found]; exact Protocol.noConfusion)
  by_contra absent
  have answer := same.trans found
  rw [ProtocolDetector.protocolOf] at answer
  split at answer
  · cases answer
  · split at answer
    · next matched => exact absent ⟨matched.1, key, member, matched.2⟩
    · cases answer

/-- Without both program ids among the keys their order does not matter. -/
theorem firstProtocol_of_not_both {keys : List BinaryData}
    (single : ¬ (detector.pumpfun.Among keys ∧ detector.raydium.Among keys)) :
    (detector.firstProtocol keys = .pumpfun ↔ detector.pumpfun.Among keys) ∧
      (detector.firstProtocol keys = .raydium ↔ detector.raydium.Among keys) := by
  have nothing : detector.firstProtocol keys = .none ↔ _ := firstProtocol_eq_none_iff keys
  have pumpfun : detector.firstProtocol keys = .pumpfun → detector.pumpfun.Among keys :=
    among_of_firstProtocol_eq_pumpfun
  have raydium : detector.firstProtocol keys = .raydium → detector.raydium.Among keys :=
    among_of_firstProtocol_eq_raydium
  cases found : detector.firstProtocol keys with
  | none =>
      obtain ⟨noPumpfun, noRaydium⟩ := nothing.mp found
      exact ⟨iff_of_false Protocol.noConfusion noPumpfun,
        iff_of_false Protocol.noConfusion noRaydium⟩
  | pumpfun =>
      have present := pumpfun found
      exact ⟨iff_of_true rfl present,
        iff_of_false Protocol.noConfusion fun other => single ⟨present, other⟩⟩
  | raydium =>
      have present := raydium found
      exact ⟨iff_of_false Protocol.noConfusion fun other => single ⟨other, present⟩,
        iff_of_true rfl present⟩

end Detector

theorem ProtocolPattern.among_congr {pattern : ProtocolPattern} {keys keys' : List BinaryData}
    (same : ∀ key, key ∈ keys' ↔ key ∈ keys) : pattern.Among keys' ↔ pattern.Among keys := by
  simp only [ProtocolPattern.Among, same]

theorem firstProtocol_congr {detector : ProtocolDetector} {keys keys' : List BinaryData}
    (single : ¬ (detector.pumpfun.Among keys ∧ detector.raydium.Among keys))
    (same : ∀ key, key ∈ keys' ↔ key ∈ keys) :
    detector.firstProtocol keys' = detector.firstProtocol keys := by
  have here := firstProtocol_of_not_both single
  have single' : ¬ (detector.pumpfun.Among keys' ∧ detector.raydium.Among keys') := by
    rwa [ProtocolPattern.among_congr same, ProtocolPattern.among_congr same]
  have there := firstProtocol_of_not_both single'
  rw [ProtocolPattern.among_congr same, ProtocolPattern.among_congr same, ← here.1,
    ← here.2] at there
  cases found : detector.firstProtocol keys with
  | pumpfun => exact there.1.mpr found
  | raydium => exact there.2.mpr found
  | none =>
      rw [found] at there
      cases other : detector.firstProtocol keys' with
      | none => rfl
      | pumpfun => exact absurd (there.1.mp other) Protocol.noConfusion
      | raydium => exact absurd (there.2.mp other) Protocol.noConfusion

/-! ## The handler -/

section Handler

variable {detector : ProtocolDetector} {calloc : Bool} {update : SubscribeUpdateTransaction}
  {keys keys' : List BinaryData}

theorem makeEvent_withAccountKeys (data : EventData) :
    makeEvent calloc (update.withAccountKeys keys') data = makeEvent calloc update data := by
  rw [makeEvent, makeEvent, SubscribeUpdateTransaction.withAccountKeys]
  cases update.transaction with
  | none => rfl
  | some info =>
      cases info with
      | mk signature transaction statusMeta =>
          cases signature with
          | mk bytes => cases bytes <;> rfl

/-- A processor does not look at the account keys. -/
theorem runProcessor_withAccountKeys (protocol : Protocol) :
    runProcessor protocol calloc (update.withAccountKeys keys') =
      runProcessor protocol calloc update := by
  have scanned : ∀ parse bufLen lines,
      scanLogMessages parse bufLen calloc (update.withAccountKeys keys') lines =
        scanLogMessages parse bufLen calloc update lines := by
    intro parse bufLen lines
    induction lines with
    | nil => rfl
    | cons line lines ih => simp only [scanLogMessages, ih, makeEvent_withAccountKeys]
  have meta_eq : (update.withAccountKeys keys').transaction.bind (·.statusMeta) =
      update.transaction.bind (·.statusMeta) := by
    rw [SubscribeUpdateTransaction.withAccountKeys]
    cases update.transaction <;> rfl
  have processed : ∀ parse bufLen statusMeta,
      processLogMessages parse bufLen calloc (update.withAccountKeys keys') statusMeta =
        processLogMessages parse bufLen calloc update statusMeta := by
    intro parse bufLen statusMeta
    rw [processLogMessages.eq_def, processLogMessages.eq_def]
    split
    · exact scanned _ _ _
    · rfl
  unfold runProcessor
  rw [meta_eq]
  cases protocol with
  | none => rfl
  | pumpfun => exact processed _ _ _
  | raydium => exact processed _ _ _

theorem accountKeys_withAccountKeys (message : update.accountKeys = some keys) :
    (update.withAccountKeys keys').accountKeys = some keys' := by
  obtain ⟨info, reached, message⟩ := Option.bind_eq_some_iff.mp message
  obtain ⟨solTx, inner, message⟩ := Option.bind_eq_some_iff.mp message
  obtain ⟨msg, innermost, -⟩ := Option.bind_eq_some_iff.mp message
  simp [SubscribeUpdateTransaction.accountKeys, SubscribeUpdateTransaction.withAccountKeys, reached,
    inner, innermost]

theorem protocol_eq (message : update.accountKeys = some keys) :
    update.protocol detector = detector.firstProtocol (keys.take 256) := by
  rw [SubscribeUpdateTransaction.protocol, message]
  exact protocolDetectorMatchAccounts_eq _

theorem handleTransaction_eq_runProcessor :
    handleTransaction detector calloc (some update) =
      runProcessor (update.protocol detector) calloc update := by
  rw [handleTransaction_eq]
  unfold runProcessor
  cases update.protocol detector <;> rfl

/-- The handler runs the processor of the first of the first 256 account keys that is an enabled
program id.  Unless both program ids are among these keys, the protocols whose processor runs are
those whose id is among them, and nothing else about the keys matters. -/
theorem handleTransaction_routes (message : update.accountKeys = some keys) :
    handleTransaction detector calloc (some update) =
        runProcessor (detector.firstProtocol (keys.take 256)) calloc update ∧
      (¬ (detector.pumpfun.Among (keys.take 256) ∧ detector.raydium.Among (keys.take 256)) →
        (detector.firstProtocol (keys.take 256) = .pumpfun ↔
          detector.pumpfun.Among (keys.take 256)) ∧
        (detector.firstProtocol (keys.take 256) = .raydium ↔
          detector.raydium.Among (keys.take 256)) ∧
        ∀ keys', (∀ key, key ∈ keys'.take 256 ↔ key ∈ keys.take 256) →
          handleTransaction detector calloc (some (update.withAccountKeys keys')) =
            handleTransaction detector calloc (some update)) := by
  refine ⟨?_, ?_⟩
  · rw [handleTransaction_eq_runProcessor, protocol_eq message]
  · intro single
    obtain ⟨pumpfun, raydium⟩ := firstProtocol_of_not_both single
    refine ⟨pumpfun, raydium, ?_⟩
    intro keys' same
    rw [handleTransaction_eq_runProcessor, handleTransaction_eq_runProcessor,
      runProcessor_withAccountKeys, protocol_eq message,
      protocol_eq (accountKeys_withAccountKeys message), firstProtocol_congr single same]

end Handler

/-- The update of the two programs' keys in a given order with a trade in its log. -/
def bothPrograms (first second : Pubkey) : SubscribeUpdateTransaction :=
  let update := sampleUpdate first [1] [programDataLine CString.empty (sampleTrade.encode ++ [])]
  update.withAccountKeys [⟨some first.bytes⟩, ⟨some second.bytes⟩]

/-- A message with the PumpFun key only. -/
theorem handleTransaction_routes_one_program :
    let update := sampleUpdate (filledKey 1) [1] []
    let keys := [(⟨some (filledKey 1).bytes⟩ : BinaryData)]
    handleTransaction sampleDetector true (some update) =
        runProcessor (sampleDetector.firstProtocol (keys.take 256)) true update ∧
      (sampleDetector.firstProtocol (keys.take 256) = .pumpfun ↔
        sampleDetector.pumpfun.Among (keys.take 256)) ∧
      (sampleDetector.firstProtocol (keys.take 256) = .raydium ↔
        sampleDetector.raydium.Among (keys.take 256)) ∧
      ∀ keys', (∀ key, key ∈ keys'.take 256 ↔ key ∈ keys.take 256) →
        handleTransaction sampleDetector true (some (update.withAccountKeys keys')) =
          handleTransaction sampleDetector true (some update) := by
  have single : ¬ (sampleDetector.pumpfun.Among
        (([(⟨some (filledKey 1).bytes⟩ : BinaryData)]).take 256) ∧
      sampleDetector.raydium.Among
        (([(⟨some (filledKey 1).bytes⟩ : BinaryData)]).take 256)) := by
    rintro ⟨-, -, key, member, here⟩
    obtain rfl := List.mem_singleton.mp member
    exact absurd here (by decide)
  have routed := @handleTransaction_routes sampleDetector true
    (sampleUpdate (filledKey 1) [1] []) [⟨some (filledKey 1).bytes⟩] rfl
  exact ⟨routed.1, routed.2 single⟩

/-- With both program ids among the keys the order decides, and one of the processors does not
run. -/
theorem routing_depends_on_key_order :
    sampleDetector.pumpfun.Among [⟨some (filledKey 1).bytes⟩, ⟨some (filledKey 2).bytes⟩] ∧
      sampleDetector.raydium.Among [⟨some (filledKey 1).bytes⟩, ⟨some (filledKey 2).bytes⟩] ∧
      (bothPrograms (filledKey 1) (filledKey 2)).protocol sampleDetector = .pumpfun ∧
      (bothPrograms (filledKey 2) (filledKey 1)).protocol sampleDetector = .raydium ∧
      handleTransaction sampleDetector true (some (bothPrograms (filledKey 1) (filledKey 2))) ≠
        handleTransaction sampleDetector true
          (some (bothPrograms (filledKey 2) (filledKey 1))) := by
  have bounded : (sampleTrade.encode ++ []).length ≤ 768 := by
    rw [List.append_nil, PumpfunTradeLayout.encode_length]
    decide
  have logged : (bothPrograms (filledKey 1) (filledKey 2)).logMessages =
      some ([] ++ programDataLine CString.empty (sampleTrade.encode ++ []) :: []) := rfl
  have pumpfun : (bothPrograms (filledKey 1) (filledKey 2)).protocol sampleDetector = .pumpfun := by
    decide
  have raydium : (bothPrograms (filledKey 2) (filledKey 1)).protocol sampleDetector = .raydium := by
    decide
  refine ⟨⟨rfl, by decide⟩, ⟨rfl, by decide⟩, pumpfun, raydium, ?_⟩
  have traded : handleTransaction sampleDetector true _ = _ :=
    handleTransaction_programDataLine bounded pumpfun logged (by decide) (by simp)
  intro same
  rw [traded, handleTransaction_eq, raydium] at same
  simp only [processRaydium, processLogMessages_eq] at same
  obtain ⟨line, decoded, data, -, decodes, parsed, -⟩ :=
    mem_scanLogMessages same.symm List.mem_cons_self
  rw [not_parseSwapOf decodes] at parsed
  cases parsed

/-- A list of 257 keys whose last one is the PumpFun program. -/
def lateKey : List BinaryData :=
  List.replicate 256 ⟨some (filledKey 3).bytes⟩ ++ [⟨some (filledKey 1).bytes⟩]

/-- The update of such a message with a trade in its log. -/
def lateKeyUpdate (keys : List BinaryData) : SubscribeUpdateTransaction :=
  let update := sampleUpdate (filledKey 1) [1]
    [programDataLine CString.empty (sampleTrade.encode ++ [])]
  update.withAccountKeys keys

/-- A key behind the first 256 is not looked at, and so the reversed list has another outcome. -/
theorem routing_ignores_later_keys :
    sampleDetector.pumpfun.Among lateKey ∧
      handleTransaction sampleDetector true (some (lateKeyUpdate lateKey)) = .ok [] ∧
      handleTransaction sampleDetector true (some (lateKeyUpdate lateKey.reverse)) ≠ .ok [] := by
  refine ⟨⟨rfl, _, List.mem_append_right _ List.mem_cons_self, rfl⟩, ?_, ?_⟩
  · have capped : lateKey.take 256 = List.replicate 256 ⟨some (filledKey 3).bytes⟩ :=
      List.take_left' List.length_replicate
    have nothing : sampleDetector.firstProtocol (lateKey.take 256) = .none := by
      rw [capped, firstProtocol_eq_none_iff]
      constructor
      · rintro ⟨-, key, member, here⟩
        rw [List.eq_of_mem_replicate member] at here
        exact absurd here (by decide)
      · rintro ⟨-, key, member, here⟩
        rw [List.eq_of_mem_replicate member] at here
        exact absurd here (by decide)
    have message : (lateKeyUpdate lateKey).accountKeys = some lateKey := rfl
    rw [handleTransaction_eq, protocol_eq message, nothing]
  · have bounded : (sampleTrade.encode ++ []).length ≤ 768 := by
      rw [List.append_nil, PumpfunTradeLayout.encode_length]
      decide
    have logged : (lateKeyUpdate lateKey.reverse).logMessages =
        some ([] ++ programDataLine CString.empty (sampleTrade.encode ++ []) :: []) := rfl
    have message : (lateKeyUpdate lateKey.reverse).accountKeys = some lateKey.reverse := rfl
    have detected : (lateKeyUpdate lateKey.reverse).protocol sampleDetector = .pumpfun := by
      rw [protocol_eq message, lateKey, List.reverse_append]
      rfl
    have traded : handleTransaction sampleDetector true _ = _ :=
      handleTransaction_programDataLine bounded detected logged (by decide) (by simp)
    rw [traded]
    simp

end YureiGeyser
