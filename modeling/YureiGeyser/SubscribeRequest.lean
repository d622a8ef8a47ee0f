import YureiGeyser.GeyserClient

/-!
# Subscribe requests

What `geyser_client.c` packs into a request, and how it recognizes the status by which an endpoint
rejects a resume position.
-/

namespace YureiGeyser

/-! ## The request -/

/-- `Geyser__CommitmentLevel`. -/
inductive CommitmentLevel
  | processed
  | confirmed
  | finalized
  deriving DecidableEq

/-- The fields of `yurei_config_t` about the resume position. -/
structure YureiConfig where
  fromSlotSet : Bool
  fromSlot : UInt64

/-- `Geyser__SubscribeRequest__TransactionsEntry` with the list of its filter. -/
structure TransactionsEntry where
  key : CString
  accountInclude : List CString

/-- `Geyser__SubscribeRequest`. -/
structure SubscribeRequest where
  commitment : Option CommitmentLevel
  fromSlot : Option UInt64
  transactions : List TransactionsEntry

/-- The answers of the allocator while the payload is built. -/
structure PayloadMemory where
  pumpfunCalloc : Bool
  raydiumCalloc : Bool
  malloc : Bool

/-- The filter entry of one program. -/
def accountInclude (calloc : Bool) (pattern : ProtocolPattern) : List CString :=
  if pattern.enabled then
    match Base58.base58Encode calloc pattern.programId.bytes 64 with
    | some filter => if filter.strlen > 0 then [filter] else []
    | none => []
  else []

/-- `build_subscribe_payload`, up to the packing of the request. -/
def buildSubscribePayload (config : YureiConfig) (detector : ProtocolDetector)
    (memory : PayloadMemory) : Option SubscribeRequest :=
  let accountIncludes :=
    accountInclude memory.pumpfunCalloc detector.pumpfun ++
      accountInclude memory.raydiumCalloc detector.raydium
  let request : SubscribeRequest :=
    { commitment := some .processed
      fromSlot := if config.fromSlotSet then some config.fromSlot else none
      transactions :=
        [{ key := { bytes := ascii "transactions", noNul := by decide +kernel }
           accountInclude := accountIncludes }] }
  if memory.malloc then some request else none

theorem buildSubscribePayload_fromSlot {config : YureiConfig} {detector : ProtocolDetector}
    {memory : PayloadMemory} {request : SubscribeRequest}
    (built : buildSubscribePayload config detector memory = some request) :
    request.fromSlot = if config.fromSlotSet then some config.fromSlot else none := by
  rw [buildSubscribePayload] at built
  split at built
  · cases built
    rfl
  · cases built

/-! ## The status details -/

/-- `slice_contains_string`. -/
def sliceContainsString (slice : List UInt8) (needle : CString) : Bool :=
  if needle.strlen = 0 then false
  else if needle.strlen = 0 ∨ slice.length < needle.strlen then false
  else
    (List.range (slice.length - needle.strlen + 1)).any fun i =>
      (slice.drop i).take needle.strlen = needle.bytes

/-- The text by which an endpoint rejects a resume position. -/
def fromSlotNotSupported : CString where
  bytes := ascii "from_slot is not supported"
  noNul := by decide +kernel

theorem sliceContainsString_iff (slice : List UInt8) {needle : CString}
    (nonempty : needle.strlen ≠ 0) :
    sliceContainsString slice needle = true ↔ needle.bytes <:+: slice := by
  rw [sliceContainsString, if_neg nonempty]
  constructor
  · intro contains
    split at contains
    · cases contains
    · obtain ⟨i, -, found⟩ := List.any_eq_true.mp contains
      have here := of_decide_eq_true found
      refine ⟨slice.take i, (slice.drop i).drop needle.strlen, ?_⟩
      rw [List.append_assoc, ← here, List.take_append_drop, List.take_append_drop]
  · rintro ⟨front, back, split_eq⟩
    have length := congrArg List.length split_eq
    rw [List.length_append, List.length_append] at length
    rw [if_neg (by rw [CString.strlen] at nonempty ⊢; omega)]
    refine List.any_eq_true.mpr ⟨front.length, ?_, ?_⟩
    · rw [List.mem_range, CString.strlen]
      omega
    · refine decide_eq_true ?_
      rw [← split_eq, List.append_assoc, List.drop_left, CString.strlen, List.take_left]

end YureiGeyser
