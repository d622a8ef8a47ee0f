import YureiGeyser.Base64
import YureiGeyser.Layout

/-!
# The PumpFun parser

`PumpfunTradeLayout` is the packed struct of `pumpfun_parser.c`, `overlay` the cast of a byte
string to it and `encode` the bytes of such a struct on a little-endian machine.
-/

namespace YureiGeyser

/-- `pumpfun_trade_layout_t`. -/
structure PumpfunTradeLayout where
  mint : Pubkey
  solAmount : UInt64
  tokenAmount : UInt64
  isBuy : UInt8
  user : Pubkey
  timestamp : Int64
  virtualSolReserves : UInt64
  virtualTokenReserves : UInt64
  realSolReserves : UInt64
  realTokenReserves : UInt64
  feeRecipient : Pubkey
  feeBasisPoints : UInt64
  fee : UInt64
  creator : Pubkey
  creatorFeeBasisPoints : UInt64
  creatorFee : UInt64
  trackVolume : UInt8
  totalUnclaimedTokens : UInt64
  totalClaimedTokens : UInt64
  currentSolVolume : UInt64
  lastUpdateTimestamp : Int64
  deriving DecidableEq

namespace PumpfunTradeLayout

/-- `sizeof(pumpfun_trade_layout_t)`. -/
def size : ℕ := 250

/-- The struct that a pointer cast finds at the start of a byte string. -/
def overlay (data : List UInt8) (complete : size ≤ data.length) : PumpfunTradeLayout where
  mint := Pubkey.ofOffset data 0 (by rw [size] at complete; omega)
  solAmount := u64At data 32
  tokenAmount := u64At data 40
  isBuy := u8At data 48
  user := Pubkey.ofOffset data 49 (by rw [size] at complete; omega)
  timestamp := i64At data 81
  virtualSolReserves := u64At data 89
  virtualTokenReserves := u64At data 97
  realSolReserves := u64At data 105
  realTokenReserves := u64At data 113
  feeRecipient := Pubkey.ofOffset data 121 (by rw [size] at complete; omega)
  feeBasisPoints := u64At data 153
  fee := u64At data 161
  creator := Pubkey.ofOffset data 169 (by rw [size] at complete; omega)
  creatorFeeBasisPoints := u64At data 201
  creatorFee := u64At data 209
  trackVolume := u8At data 217
  totalUnclaimedTokens := u64At data 218
  totalClaimedTokens := u64At data 226
  currentSolVolume := u64At data 234
  lastUpdateTimestamp := i64At data 242

/-- The fields of the struct in memory order. -/
def fields (layout : PumpfunTradeLayout) : List (List UInt8) :=
  [layout.mint.bytes, u64Bytes layout.solAmount, u64Bytes layout.tokenAmount, [layout.isBuy],
    layout.user.bytes, i64Bytes layout.timestamp, u64Bytes layout.virtualSolReserves,
    u64Bytes layout.virtualTokenReserves, u64Bytes layout.realSolReserves,
    u64Bytes layout.realTokenReserves, layout.feeRecipient.bytes, u64Bytes layout.feeBasisPoints,
    u64Bytes layout.fee, layout.creator.bytes, u64Bytes layout.creatorFeeBasisPoints,
    u64Bytes layout.creatorFee, [layout.trackVolume], u64Bytes layout.totalUnclaimedTokens,
    u64Bytes layout.totalClaimedTokens, u64Bytes layout.currentSolVolume,
    i64Bytes layout.lastUpdateTimestamp]

/-- The bytes of the struct. -/
def encode (layout : PumpfunTradeLayout) : List UInt8 :=
  layout.fields.flatten

@[simp] theorem encode_length (layout : PumpfunTradeLayout) : layout.encode.length = size := by
  simp [encode, fields, size, Pubkey.width]

/-- The offset of a field. -/
private theorem offset_eq (layout : PumpfunTradeLayout) (index : ℕ) :
    (layout.fields.take index).flatten.length =
      (([32, 8, 8, 1, 32, 8, 8, 8, 8, 8, 32, 8, 8, 32, 8, 8, 1, 8, 8, 8, 8] : List ℕ).take
        index).sum := by
  rw [List.length_flatten, List.map_take]
  congr 2
  simp [fields, Pubkey.width]

/-- The cast returns the struct whose bytes start the string. -/
theorem overlay_encode (layout : PumpfunTradeLayout) (suffix : List UInt8)
    (complete : size ≤ (layout.encode ++ suffix).length) :
    overlay (layout.encode ++ suffix) complete = layout := by
  have before := offset_eq layout
  cases layout with
  | mk =>
      simp only [overlay, mk.injEq]
      exact ⟨ofOffset_flatten 0 rfl (before 0) suffix _,
        u64At_flatten 1 rfl (before 1) suffix,
        u64At_flatten 2 rfl (before 2) suffix,
        u8At_flatten 3 rfl (before 3) suffix,
        ofOffset_flatten 4 rfl (before 4) suffix _,
        i64At_flatten 5 rfl (before 5) suffix,
        u64At_flatten 6 rfl (before 6) suffix,
        u64At_flatten 7 rfl (before 7) suffix,
        u64At_flatten 8 rfl (before 8) suffix,
        u64At_flatten 9 rfl (before 9) suffix,
        ofOffset_flatten 10 rfl (before 10) suffix _,
        u64At_flatten 11 rfl (before 11) suffix,
        u64At_flatten 12 rfl (before 12) suffix,
        ofOffset_flatten 13 rfl (before 13) suffix _,
        u64At_flatten 14 rfl (before 14) suffix,
        u64At_flatten 15 rfl (before 15) suffix,
        u8At_flatten 16 rfl (before 16) suffix,
        u64At_flatten 17 rfl (before 17) suffix,
        u64At_flatten 18 rfl (before 18) suffix,
        u64At_flatten 19 rfl (before 19) suffix,
        i64At_flatten 20 rfl (before 20) suffix⟩

end PumpfunTradeLayout

/-- `pumpfun_parse_trade`. -/
def pumpfunParseTrade (data : List UInt8) : Option PumpfunTrade :=
  if complete : PumpfunTradeLayout.size ≤ data.length then
    let layout := PumpfunTradeLayout.overlay data complete
    some
      { mint := layout.mint
        trader := layout.user
        creator := layout.creator
        solAmount := layout.solAmount
        tokenAmount := layout.tokenAmount
        isBuy := layout.isBuy != 0
        virtualSolReserves := layout.virtualSolReserves
        virtualTokenReserves := layout.virtualTokenReserves
        realSolReserves := layout.realSolReserves
        realTokenReserves := layout.realTokenReserves
        feeBasisPoints := layout.feeBasisPoints
        feeLamports := layout.fee
        creatorFeeBasisPoints := layout.creatorFeeBasisPoints
        creatorFeeLamports := layout.creatorFee
        timestamp := layout.timestamp
        slot := 0 }
  else
    none

/-- The trade that a struct describes. -/
def PumpfunTradeLayout.trade (layout : PumpfunTradeLayout) (slot : UInt64) : PumpfunTrade where
  mint := layout.mint
  trader := layout.user
  creator := layout.creator
  solAmount := layout.solAmount
  tokenAmount := layout.tokenAmount
  isBuy := layout.isBuy != 0
  virtualSolReserves := layout.virtualSolReserves
  virtualTokenReserves := layout.virtualTokenReserves
  realSolReserves := layout.realSolReserves
  realTokenReserves := layout.realTokenReserves
  feeBasisPoints := layout.feeBasisPoints
  feeLamports := layout.fee
  creatorFeeBasisPoints := layout.creatorFeeBasisPoints
  creatorFeeLamports := layout.creatorFee
  timestamp := layout.timestamp
  slot := slot

/-- A struct is parsed to the trade that it describes, whatever follows it. -/
theorem pumpfunParseTrade_encode (layout : PumpfunTradeLayout) (suffix : List UInt8) :
    pumpfunParseTrade (layout.encode ++ suffix) = some (layout.trade 0) := by
  have complete : PumpfunTradeLayout.size ≤ (layout.encode ++ suffix).length := by
    rw [List.length_append, PumpfunTradeLayout.encode_length]
    exact Nat.le_add_right _ _
  rw [pumpfunParseTrade, dif_pos complete, PumpfunTradeLayout.overlay_encode,
    PumpfunTradeLayout.trade]

end YureiGeyser
