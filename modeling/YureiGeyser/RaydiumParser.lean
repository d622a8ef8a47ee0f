import YureiGeyser.Layout

/-!
# The Raydium parser

`raydium_parse_swap` walks over a record with an offset.  Only some of its reads are checked, and a
failed read leaves the offset where it was.
-/

namespace YureiGeyser

/-- `read_u64`: the word and the offset behind it. -/
def readU64 (data : List UInt8) (offset : ℕ) : Option (UInt64 × ℕ) :=
  if offset + 8 > data.length then none
  else some (u64At data offset, offset + 8)

/-- `read_pubkey`: the key, unless the pointer is null, and the offset behind it. -/
def readPubkey (data : List UInt8) (offset : ℕ) : Option Pubkey × ℕ :=
  if inside : offset + 32 ≤ data.length then
    (some (Pubkey.ofOffset data offset inside), offset + 32)
  else
    (none, offset)

/-- The optional target key: the offset behind it, unless it is announced and missing. -/
def readTarget (data : List UInt8) (hasTarget : UInt8) (offset : ℕ) : Option ℕ :=
  if hasTarget ≠ 0 then
    match readPubkey data offset with
    | (none, _) => none
    | (some _target, offset) => some offset
  else some offset

/-- `raydium_parse_swap`. -/
def raydiumParseSwap (data : List UInt8) : Option RaydiumSwap := do
  let (amountIn, offset) ← readU64 data 0
  let (_minimumAmountOut, offset) ← readU64 data offset
  let (_maxAmountIn, offset) ← readU64 data offset
  let (amountOut, offset) ← readU64 data offset
  let (_tokenProgram, offset) := readPubkey data offset
  let (amm, offset) := readPubkey data offset
  let amm ← amm
  let (_ammAuthority, offset) := readPubkey data offset
  let (_ammOpenOrders, offset) := readPubkey data offset
  let hasTarget ← data[offset]?
  let offset ← readTarget data hasTarget (offset + 1)
  let (_poolCoin, offset) := readPubkey data offset
  let (_poolPc, offset) := readPubkey data offset
  let (_serumProgram, offset) := readPubkey data offset
  let (_serumMarket, offset) := readPubkey data offset
  let (_serumBids, offset) := readPubkey data offset
  let (_serumAsks, offset) := readPubkey data offset
  let (_serumEventQueue, offset) := readPubkey data offset
  let (_serumCoinVault, offset) := readPubkey data offset
  let (_serumPcVault, offset) := readPubkey data offset
  let (_serumSigner, offset) := readPubkey data offset
  let (_userSource, offset) := readPubkey data offset
  let (_userDestination, offset) := readPubkey data offset
  let (userOwner, _) := readPubkey data offset
  let userOwner ← userOwner
  return { amm, userSourceOwner := userOwner, amountIn, amountOut, slot := 0 }

/-- The offset behind a number of unchecked keys. -/
def skipPubkeys (data : List UInt8) : ℕ → ℕ → ℕ
  | 0, offset => offset
  | count + 1, offset => skipPubkeys data count (readPubkey data offset).2

section Reads

variable {data : List UInt8} {offset : ℕ}

theorem readU64_of_le (inside : offset + 8 ≤ data.length) :
    readU64 data offset = some (u64At data offset, offset + 8) := by
  rw [readU64, if_neg (by omega)]

theorem readU64_eq_some {word : UInt64} {next : ℕ} (read : readU64 data offset = some (word, next)) :
    offset + 8 ≤ data.length ∧ word = u64At data offset ∧ next = offset + 8 := by
  rw [readU64] at read
  split at read
  · cases read
  · cases read
    exact ⟨by omega, rfl, rfl⟩

theorem readPubkey_of_le (inside : offset + 32 ≤ data.length) :
    readPubkey data offset = (some (Pubkey.ofOffset data offset inside), offset + 32) := by
  rw [readPubkey, dif_pos inside]

theorem readPubkey_fst_eq_some {key : Pubkey} (read : (readPubkey data offset).1 = some key) :
    offset + 32 ≤ data.length := by
  rw [readPubkey] at read
  split at read
  · assumption
  · cases read

theorem le_readPubkey_snd : offset ≤ (readPubkey data offset).2 := by
  rw [readPubkey]
  split
  · exact Nat.le_add_right offset 32
  · exact le_rfl

theorem readTarget_eq_some {hasTarget : UInt8} {next : ℕ}
    (read : readTarget data hasTarget offset = some next) :
    next = if hasTarget = 0 then offset else offset + 32 := by
  by_cases absent : hasTarget = 0
  · rw [readTarget, if_neg (not_not.mpr absent), Option.some.injEq] at read
    rw [if_pos absent, read]
  · rw [readTarget, if_pos absent] at read
    rw [if_neg absent]
    by_cases inside : offset + 32 ≤ data.length
    · rw [readPubkey_of_le inside] at read
      exact (Option.some.inj read).symm
    · rw [readPubkey, dif_neg inside] at read
      cases read

theorem skipPubkeys_of_le {count : ℕ} (inside : offset + 32 * count ≤ data.length) :
    skipPubkeys data count offset = offset + 32 * count := by
  induction count generalizing offset with
  | zero => rfl
  | succ count ih =>
      rw [skipPubkeys, readPubkey_of_le (by omega), ih (by omega)]
      omega

theorem le_skipPubkeys (count : ℕ) : offset ≤ skipPubkeys data count offset := by
  induction count generalizing offset with
  | zero => exact le_rfl
  | succ count ih => exact le_readPubkey_snd.trans ih

/-- Once an unchecked read fails there is no room for a later one. -/
theorem room_of_skipPubkeys {count : ℕ} (inside : skipPubkeys data count offset + 32 ≤ data.length) :
    offset + 32 * count + 32 ≤ data.length := by
  induction count generalizing offset with
  | zero => exact inside
  | succ count ih =>
      by_cases complete : offset + 32 ≤ data.length
      · rw [skipPubkeys, readPubkey_of_le complete] at inside
        have room := ih inside
        omega
      · have monotone : offset ≤ skipPubkeys data (count + 1) offset := le_skipPubkeys (count + 1)
        omega

end Reads

/-- The length of the record at the start of a byte string. -/
def swapLength (data : List UInt8) : ℕ :=
  if u8At data 160 = 0 then 577 else 609

theorem swapLength_bounds (data : List UInt8) : 577 ≤ swapLength data ∧ swapLength data ≤ 609 := by
  rw [swapLength]
  split <;> omega

/-- The swap of a complete record. -/
def swapAt (data : List UInt8) (complete : swapLength data ≤ data.length) : RaydiumSwap where
  amm := Pubkey.ofOffset data 64 (by have bounds := swapLength_bounds data; omega)
  userSourceOwner := Pubkey.ofOffset data (swapLength data - 32)
    (by have bounds := swapLength_bounds data; omega)
  amountIn := u64At data 0
  amountOut := u64At data 24
  slot := 0

/-- The walk with its unchecked reads counted. -/
private theorem raydiumParseSwap_eq_bind (data : List UInt8) :
    raydiumParseSwap data =
      (readU64 data 0).bind fun amountIn =>
      (readU64 data amountIn.2).bind fun minimumAmountOut =>
      (readU64 data minimumAmountOut.2).bind fun maxAmountIn =>
      (readU64 data maxAmountIn.2).bind fun amountOut =>
      (readPubkey data (skipPubkeys data 1 amountOut.2)).1.bind fun amm =>
      data[skipPubkeys data 4 amountOut.2]?.bind fun hasTarget =>
      (readTarget data hasTarget (skipPubkeys data 4 amountOut.2 + 1)).bind fun offset =>
      (readPubkey data (skipPubkeys data 12 offset)).1.bind fun userOwner =>
      some (RaydiumSwap.mk amm userOwner amountIn.1 amountOut.1 0) :=
  rfl

/-- An accepted byte string holds a complete record. -/
theorem swapLength_le_of_raydiumParseSwap {data : List UInt8} {swap : RaydiumSwap}
    (accepted : raydiumParseSwap data = some swap) : swapLength data ≤ data.length := by
  simp only [raydiumParseSwap_eq_bind, Option.bind_eq_some_iff, Prod.exists] at accepted
  obtain ⟨amountIn, _, readAmountIn, _, _, readMinimum, _, _, readMaximum, amountOut, _,
    readAmountOut, amm, readAmm, hasTarget, readHasTarget, next, target, owner, readOwner, -⟩ :=
    accepted
  obtain ⟨-, -, rfl⟩ := readU64_eq_some readAmountIn
  obtain ⟨-, -, rfl⟩ := readU64_eq_some readMinimum
  obtain ⟨-, -, rfl⟩ := readU64_eq_some readMaximum
  obtain ⟨-, -, rfl⟩ := readU64_eq_some readAmountOut
  have nextEq := readTarget_eq_some target
  have behind : skipPubkeys data 4 32 + 1 ≤ next := by
    rw [nextEq]
    split
    · exact le_rfl
    · exact Nat.le_add_right _ 32
  -- The last read is checked, so it leaves room for every unchecked one before it.
  have ownerRoom : next + 32 * 12 + 32 ≤ data.length :=
    room_of_skipPubkeys (readPubkey_fst_eq_some readOwner)
  have prefixRoom : 32 + 32 * 4 + 32 ≤ data.length :=
    room_of_skipPubkeys (show skipPubkeys data 4 32 + 32 ≤ data.length by omega)
  have here : skipPubkeys data 4 32 = 160 := skipPubkeys_of_le (by omega)
  change data[skipPubkeys data 4 32]? = some hasTarget at readHasTarget
  change next = if hasTarget = 0 then skipPubkeys data 4 32 + 1 else skipPubkeys data 4 32 + 1 + 32
    at nextEq
  rw [here] at readHasTarget nextEq
  have hasTargetEq : u8At data 160 = hasTarget := by
    rw [u8At, List.getD_eq_getElem?_getD, readHasTarget, Option.getD_some]
  rw [swapLength, hasTargetEq]
  by_cases absent : hasTarget = 0
  · rw [if_pos absent] at nextEq ⊢
    omega
  · rw [if_neg absent] at nextEq ⊢
    omega

/-- A complete record is accepted. -/
theorem raydiumParseSwap_of_le {data : List UInt8} (complete : swapLength data ≤ data.length) :
    raydiumParseSwap data = some (swapAt data complete) := by
  have bounds := swapLength_bounds data
  have readAmm : (readPubkey data (skipPubkeys data 1 32)).1 =
      some (Pubkey.ofOffset data 64 (by omega)) := by
    rw [skipPubkeys_of_le (by omega), readPubkey_of_le]
  have readHasTarget : data[skipPubkeys data 4 32]? = some (u8At data 160) := by
    rw [skipPubkeys_of_le (by omega), u8At, List.getD_eq_getElem?_getD,
      List.getElem?_eq_getElem (by omega), Option.getD_some]
  have target : readTarget data (u8At data 160) (skipPubkeys data 4 32 + 1) =
      some (swapLength data - 416) := by
    rw [skipPubkeys_of_le (by omega)]
    by_cases absent : u8At data 160 = 0
    · rw [readTarget, if_neg (not_not.mpr absent), swapLength, if_pos absent]
    · rw [readTarget, if_pos absent, readPubkey_of_le (by omega), swapLength, if_neg absent]
  have readOwner : (readPubkey data (skipPubkeys data 12 (swapLength data - 416))).1 =
      some (Pubkey.ofOffset data (swapLength data - 32) (by omega)) := by
    have owner : skipPubkeys data 12 (swapLength data - 416) = swapLength data - 32 := by
      rw [skipPubkeys_of_le (by omega)]
      omega
    rw [owner, readPubkey_of_le]
  rw [raydiumParseSwap_eq_bind]
  rw [readU64_of_le (by omega), Option.bind_some, readU64_of_le (by omega), Option.bind_some,
    readU64_of_le (by omega), Option.bind_some, readU64_of_le (by omega), Option.bind_some]
  change (readPubkey data (skipPubkeys data 1 32)).1.bind (fun amm =>
    data[skipPubkeys data 4 32]?.bind fun hasTarget =>
    (readTarget data hasTarget (skipPubkeys data 4 32 + 1)).bind fun offset =>
    (readPubkey data (skipPubkeys data 12 offset)).1.bind fun userOwner =>
    some (RaydiumSwap.mk amm userOwner (u64At data 0) (u64At data 24) 0)) = _
  rw [readAmm, Option.bind_some, readHasTarget, Option.bind_some, target, Option.bind_some,
    readOwner, Option.bind_some, swapAt]

/-- One record of the layout that the parser walks over. -/
structure RaydiumSwapRecord where
  amountIn : UInt64
  minimumAmountOut : UInt64
  maxAmountIn : UInt64
  amountOut : UInt64
  tokenProgram : Pubkey
  amm : Pubkey
  ammAuthority : Pubkey
  ammOpenOrders : Pubkey
  hasTarget : UInt8
  target : Option Pubkey
  /-- The byte announces the optional key. -/
  announced : target.isSome ↔ hasTarget ≠ 0
  poolCoin : Pubkey
  poolPc : Pubkey
  serumProgram : Pubkey
  serumMarket : Pubkey
  serumBids : Pubkey
  serumAsks : Pubkey
  serumEventQueue : Pubkey
  serumCoinVault : Pubkey
  serumPcVault : Pubkey
  serumSigner : Pubkey
  userSource : Pubkey
  userDestination : Pubkey
  userOwner : Pubkey

namespace RaydiumSwapRecord

/-- The bytes of the optional key. -/
def targetBytes (record : RaydiumSwapRecord) : List UInt8 :=
  match record.target with
  | none => []
  | some key => key.bytes

/-- The fields of the record in order. -/
def fields (record : RaydiumSwapRecord) : List (List UInt8) :=
  [u64Bytes record.amountIn, u64Bytes record.minimumAmountOut, u64Bytes record.maxAmountIn,
    u64Bytes record.amountOut, record.tokenProgram.bytes, record.amm.bytes,
    record.ammAuthority.bytes, record.ammOpenOrders.bytes, [record.hasTarget], record.targetBytes,
    record.poolCoin.bytes, record.poolPc.bytes, record.serumProgram.bytes,
    record.serumMarket.bytes, record.serumBids.bytes, record.serumAsks.bytes,
    record.serumEventQueue.bytes, record.serumCoinVault.bytes, record.serumPcVault.bytes,
    record.serumSigner.bytes, record.userSource.bytes, record.userDestination.bytes,
    record.userOwner.bytes]

/-- The bytes of the record. -/
def encode (record : RaydiumSwapRecord) : List UInt8 :=
  record.fields.flatten

/-- The swap that the record describes. -/
def swap (record : RaydiumSwapRecord) : RaydiumSwap where
  amm := record.amm
  userSourceOwner := record.userOwner
  amountIn := record.amountIn
  amountOut := record.amountOut
  slot := 0

theorem targetBytes_length (record : RaydiumSwapRecord) :
    record.targetBytes.length = if record.hasTarget = 0 then 0 else 32 := by
  have announced := record.announced
  rw [targetBytes]
  cases target : record.target with
  | none =>
      rw [target] at announced
      rw [if_pos (by simpa using announced), List.length_nil]
  | some key =>
      rw [target] at announced
      rw [if_neg (announced.mp rfl), key.width]

/-- The offset of a field. -/
private theorem offset_eq (record : RaydiumSwapRecord) (index : ℕ) :
    (record.fields.take index).flatten.length =
      (([8, 8, 8, 8, 32, 32, 32, 32, 1, record.targetBytes.length, 32, 32, 32, 32, 32, 32, 32, 32,
        32, 32, 32, 32, 32] : List ℕ).take index).sum := by
  rw [List.length_flatten, List.map_take]
  congr 2
  simp [fields, Pubkey.width]

theorem encode_length (record : RaydiumSwapRecord) :
    record.encode.length = if record.hasTarget = 0 then 577 else 609 := by
  have total := offset_eq record 23
  have all : record.fields.take 23 = record.fields := rfl
  rw [all, targetBytes_length] at total
  rw [encode, total]
  split <;> rfl

theorem swapLength_encode (record : RaydiumSwapRecord) (suffix : List UInt8) :
    swapLength (record.encode ++ suffix) = record.encode.length := by
  have announcement : u8At (record.encode ++ suffix) 160 = record.hasTarget :=
    u8At_flatten 8 rfl (offset_eq record 8) suffix
  rw [swapLength, announcement, encode_length]

/-- A record is parsed to the swap that it describes. -/
theorem raydiumParseSwap_encode (record : RaydiumSwapRecord) (suffix : List UInt8) :
    raydiumParseSwap (record.encode ++ suffix) = some record.swap := by
  have length := swapLength_encode record suffix
  have complete : swapLength (record.encode ++ suffix) ≤ (record.encode ++ suffix).length := by
    rw [length, List.length_append]
    exact Nat.le_add_right _ _
  have ownerOffset :
      (record.fields.take 22).flatten.length = swapLength (record.encode ++ suffix) - 32 := by
    rw [offset_eq, targetBytes_length, length, encode_length]
    split <;> rfl
  rw [raydiumParseSwap_of_le complete, Option.some.injEq, swap]
  simp only [swapAt, RaydiumSwap.mk.injEq, and_true]
  exact ⟨ofOffset_flatten 5 rfl (offset_eq record 5) suffix _,
    ofOffset_flatten 22 rfl ownerOffset suffix _,
    u64At_flatten 0 rfl (offset_eq record 0) suffix,
    u64At_flatten 3 rfl (offset_eq record 3) suffix⟩

end RaydiumSwapRecord

end YureiGeyser
