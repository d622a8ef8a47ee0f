import YureiGeyser.RaydiumParser

/-!
# The bytes that the Raydium parser reads

`raydiumParseSwapReads` is `raydium_parse_swap` with every load spelled out: `read_pubkey` only
computes a pointer, and the bytes behind it are loaded where the source copies them.  A load outside
the input is a fault.  The walk never faults and agrees with `raydiumParseSwap`.
-/

namespace YureiGeyser

/-- A computation that may return false, and whose loads may be undefined. -/
abbrev Parse := OptionT (Except Fault)

namespace Parse

/-- A computation without loads. -/
def ofOption {α : Type} (result : Option α) : Parse α :=
  OptionT.mk (.ok result)

theorem ofOption_bind {α β : Type} (result : Option α) (next : α → Option β) :
    (ofOption result >>= fun value => ofOption (next value)) = ofOption (result.bind next) := by
  cases result <;> rfl

end Parse

/-- A copy of eight bytes into a word. -/
def memcpyU64 (data : List UInt8) (offset : ℕ) : Except Fault UInt64 :=
  if offset + 8 ≤ data.length then .ok (u64At data offset) else .error .outOfBounds

/-- A copy of the 32 bytes of a key. -/
def memcpyPubkey (data : List UInt8) (ptr : ℕ) : Except Fault Pubkey :=
  if inside : ptr + 32 ≤ data.length then .ok (Pubkey.ofOffset data ptr inside)
  else .error .outOfBounds

/-- `read_u64` with its load. -/
def readU64Reads (data : List UInt8) (offset : ℕ) : Parse (UInt64 × ℕ) :=
  if offset + 8 > data.length then
    failure
  else do
    let v ← memcpyU64 data offset
    return (v, offset + 8)

/-- `read_pubkey`: the pointer, unless it is null, and the offset behind the key. -/
def pubkeyPtr (data : List UInt8) (offset : ℕ) : Option ℕ × ℕ :=
  if offset + 32 > data.length then (none, offset) else (some offset, offset + 32)

/-- A key whose pointer is tested before the key is copied. -/
def copyPubkey (data : List UInt8) (offset : ℕ) : Parse Pubkey := do
  let ptr ← Parse.ofOption (pubkeyPtr data offset).1
  memcpyPubkey data ptr

/-- A byte whose offset is tested before it is loaded. -/
def loadByte (data : List UInt8) (offset : ℕ) : Parse UInt8 :=
  if offset ≥ data.length then failure else load data offset

/-- The optional target key, whose bytes are not loaded. -/
def targetPtr (data : List UInt8) (hasTarget : UInt8) (offset : ℕ) : Option ℕ :=
  if hasTarget ≠ 0 then
    match pubkeyPtr data offset with
    | (none, _) => none
    | (some _target, offset) => some offset
  else some offset

/-- `raydium_parse_swap` with its loads.  Each read stands with the offset behind it. -/
def raydiumParseSwapReads (data : List UInt8) : Parse RaydiumSwap := do
  let amountIn ← readU64Reads data 0
  let minimumAmountOut ← readU64Reads data amountIn.2
  let maxAmountIn ← readU64Reads data minimumAmountOut.2
  let amountOut ← readU64Reads data maxAmountIn.2
  let tokenProgram := pubkeyPtr data amountOut.2
  let amm ← copyPubkey data tokenProgram.2
  let offset := (pubkeyPtr data tokenProgram.2).2
  let ammAuthority := pubkeyPtr data offset
  let ammOpenOrders := pubkeyPtr data ammAuthority.2
  let hasTarget ← loadByte data ammOpenOrders.2
  let offset ← Parse.ofOption (targetPtr data hasTarget (ammOpenOrders.2 + 1))
  let poolCoin := pubkeyPtr data offset
  let poolPc := pubkeyPtr data poolCoin.2
  let serumProgram := pubkeyPtr data poolPc.2
  let serumMarket := pubkeyPtr data serumProgram.2
  let serumBids := pubkeyPtr data serumMarket.2
  let serumAsks := pubkeyPtr data serumBids.2
  let serumEventQueue := pubkeyPtr data serumAsks.2
  let serumCoinVault := pubkeyPtr data serumEventQueue.2
  let serumPcVault := pubkeyPtr data serumCoinVault.2
  let serumSigner := pubkeyPtr data serumPcVault.2
  let userSource := pubkeyPtr data serumSigner.2
  let userDestination := pubkeyPtr data userSource.2
  let userOwner ← copyPubkey data userDestination.2
  return { amm, userSourceOwner := userOwner, amountIn := amountIn.1, amountOut := amountOut.1,
           slot := 0 }

section Reads

variable {data : List UInt8} {offset : ℕ}

theorem readU64Reads_eq (data : List UInt8) (offset : ℕ) :
    readU64Reads data offset = Parse.ofOption (readU64 data offset) := by
  rw [readU64Reads, readU64]
  by_cases outside : offset + 8 > data.length
  · rw [if_pos outside, if_pos outside]
    rfl
  · rw [if_neg outside, if_neg outside, memcpyU64, if_pos (by omega)]
    rfl

theorem pubkeyPtr_eq (data : List UInt8) (offset : ℕ) :
    pubkeyPtr data offset =
      ((readPubkey data offset).1.map fun _ => offset, (readPubkey data offset).2) := by
  rw [pubkeyPtr, readPubkey]
  by_cases inside : offset + 32 ≤ data.length
  · rw [if_neg (by omega), dif_pos inside]
    rfl
  · rw [if_pos (by omega), dif_neg inside]
    rfl

/-- A key is loaded only through a pointer that `read_pubkey` has checked. -/
theorem copyPubkey_eq (data : List UInt8) (offset : ℕ) :
    copyPubkey data offset = Parse.ofOption (readPubkey data offset).1 := by
  rw [copyPubkey, pubkeyPtr_eq, readPubkey]
  by_cases inside : offset + 32 ≤ data.length
  · rw [dif_pos inside]
    change (liftM (memcpyPubkey data offset) : Parse Pubkey) = _
    rw [memcpyPubkey, dif_pos inside]
    rfl
  · rw [dif_neg inside]
    rfl

theorem targetPtr_eq (data : List UInt8) (hasTarget : UInt8) (offset : ℕ) :
    targetPtr data hasTarget offset = readTarget data hasTarget offset := by
  rw [targetPtr, readTarget, pubkeyPtr_eq]
  cases readPubkey data offset with
  | mk key next => cases key <;> rfl

theorem loadByte_eq (data : List UInt8) (offset : ℕ) :
    loadByte data offset = Parse.ofOption data[offset]? := by
  rw [loadByte]
  by_cases outside : offset ≥ data.length
  · rw [if_pos outside, List.getElem?_eq_none outside]
    rfl
  · rw [if_neg outside, load, List.getElem?_eq_getElem (by omega)]
    rfl

end Reads

/-- No load of the walk is outside the input. -/
theorem raydiumParseSwapReads_eq (data : List UInt8) :
    raydiumParseSwapReads data = Parse.ofOption (raydiumParseSwap data) := by
  have returns : ∀ swap : RaydiumSwap, (pure swap : Parse RaydiumSwap) =
      Parse.ofOption (some swap) := fun _ => rfl
  rw [raydiumParseSwapReads]
  simp only [readU64Reads_eq, copyPubkey_eq, loadByte_eq, targetPtr_eq, pubkeyPtr_eq, returns,
    Parse.ofOption_bind]
  rfl

/-! ## Acceptance -/

section Suffix

variable {data : List UInt8} {offset : ℕ}

theorem u64At_append (inside : offset + 8 ≤ data.length) (suffix : List UInt8) :
    u64At (data ++ suffix) offset = u64At data offset := by
  rw [u64At, u64At, List.drop_append_of_le_length (by omega),
    List.take_append_of_le_length (by rw [List.length_drop]; omega)]

theorem u8At_append (inside : offset < data.length) (suffix : List UInt8) :
    u8At (data ++ suffix) offset = u8At data offset := by
  rw [u8At, u8At, List.getD_append _ _ _ _ inside]

theorem ofOffset_append (inside : offset + 32 ≤ data.length) (suffix : List UInt8)
    (longer : offset + 32 ≤ (data ++ suffix).length) :
    Pubkey.ofOffset (data ++ suffix) offset longer = Pubkey.ofOffset data offset inside := by
  simp only [Pubkey.ofOffset, Pubkey.mk.injEq]
  rw [List.drop_append_of_le_length (by omega),
    List.take_append_of_le_length (by rw [List.length_drop]; omega)]

end Suffix

/-- What follows a complete record does not matter. -/
theorem raydiumParseSwap_append {data : List UInt8} (complete : swapLength data ≤ data.length)
    (suffix : List UInt8) : raydiumParseSwap (data ++ suffix) = raydiumParseSwap data := by
  have bounds := swapLength_bounds data
  have same : swapLength (data ++ suffix) = swapLength data := by
    rw [swapLength, u8At_append (by omega), ← swapLength]
  have longer : swapLength (data ++ suffix) ≤ (data ++ suffix).length := by
    rw [same, List.length_append]
    omega
  rw [raydiumParseSwap_of_le complete, raydiumParseSwap_of_le longer, Option.some.injEq]
  simp only [swapAt, same, RaydiumSwap.mk.injEq, and_true]
  exact ⟨ofOffset_append (by omega) suffix _, ofOffset_append (by omega) suffix _,
    u64At_append (by omega) suffix, u64At_append (by omega) suffix⟩

/-- Every load is inside the input, exactly the complete records are accepted, and the fields of a
swap are at their places whatever follows the record. -/
theorem raydiumParseSwapReads_accepts (data : List UInt8) :
    ∃ result, (raydiumParseSwapReads data).run = .ok result ∧
      (result.isSome ↔
        if u8At data 160 = 0 then 577 ≤ data.length else 609 ≤ data.length) ∧
      ∀ swap, result = some swap →
        swap.amountIn = u64At data 0 ∧ swap.amountOut = u64At data 24 ∧
          swap.amm.bytes = (data.drop 64).take 32 ∧
          swap.userSourceOwner.bytes =
            (data.drop ((if u8At data 160 = 0 then 577 else 609) - 32)).take 32 ∧
          ∀ suffix, (raydiumParseSwapReads (data ++ suffix)).run = .ok (some swap) := by
  have complete_iff : swapLength data ≤ data.length ↔
      if u8At data 160 = 0 then 577 ≤ data.length else 609 ≤ data.length := by
    rw [swapLength]
    split <;> rfl
  refine ⟨raydiumParseSwap data, by rw [raydiumParseSwapReads_eq]; rfl, ?_, ?_⟩
  · rw [← complete_iff]
    constructor
    · intro accepted
      obtain ⟨swap, parsed⟩ := Option.isSome_iff_exists.mp accepted
      exact swapLength_le_of_raydiumParseSwap parsed
    · intro complete
      rw [raydiumParseSwap_of_le complete]
      rfl
  · intro swap parsed
    have complete := swapLength_le_of_raydiumParseSwap parsed
    have trailing : ∀ suffix, (raydiumParseSwapReads (data ++ suffix)).run = .ok (some swap) := by
      intro suffix
      rw [raydiumParseSwapReads_eq, raydiumParseSwap_append complete, parsed]
      rfl
    rw [raydiumParseSwap_of_le complete] at parsed
    cases parsed
    exact ⟨rfl, rfl, rfl, rfl, trailing⟩

end YureiGeyser
