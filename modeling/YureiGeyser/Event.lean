import Mathlib.Data.UInt
import YureiGeyser.CString

/-!
# Events

The records of `yurei_event.h`.  The tag of an event and the member of its union are one inductive
value, and the signature array carries the proof that its text leaves room for the terminator.
-/

namespace YureiGeyser

/-- A 32-byte key. -/
structure Pubkey where
  /-- The bytes of the key. -/
  bytes : List UInt8
  /-- A key has 32 bytes. -/
  width : bytes.length = 32
  deriving DecidableEq

namespace Pubkey

/-- The key of 32 zero bytes. -/
def zero : Pubkey where
  bytes := List.replicate 32 0
  width := by simp

/-- The 32 bytes at an offset. -/
def ofOffset (data : List UInt8) (offset : ℕ) (inside : offset + 32 ≤ data.length) : Pubkey where
  bytes := (data.drop offset).take 32
  width := by
    rw [List.length_take, List.length_drop]
    omega

end Pubkey

/-- `YUREI_MAX_SIGNATURE_LEN`. -/
def maxSignatureLen : ℕ := 88

/-- `yurei_event_type_t`. -/
inductive EventType
  | none
  | pumpfunTrade
  | raydiumSwap
  deriving DecidableEq, Repr

/-- `yurei_pumpfun_trade_t`. -/
structure PumpfunTrade where
  mint : Pubkey
  trader : Pubkey
  creator : Pubkey
  solAmount : UInt64
  tokenAmount : UInt64
  isBuy : Bool
  virtualSolReserves : UInt64
  virtualTokenReserves : UInt64
  realSolReserves : UInt64
  realTokenReserves : UInt64
  feeBasisPoints : UInt64
  feeLamports : UInt64
  creatorFeeBasisPoints : UInt64
  creatorFeeLamports : UInt64
  slot : UInt64
  timestamp : Int64
  deriving DecidableEq

/-- `yurei_raydium_swap_t`. -/
structure RaydiumSwap where
  amm : Pubkey
  userSourceOwner : Pubkey
  amountIn : UInt64
  amountOut : UInt64
  slot : UInt64
  deriving DecidableEq

/-- The tag of an event together with the union member that it selects. -/
inductive EventData
  | none
  | pumpfunTrade (trade : PumpfunTrade)
  | raydiumSwap (swap : RaydiumSwap)
  deriving DecidableEq

/-- `yurei_event_t`. -/
structure Event where
  /-- The text in the signature array. -/
  signature : CString
  /-- The array also holds the terminator. -/
  terminated : signature.strlen < maxSignatureLen
  /-- The tag and the union. -/
  data : EventData
  deriving DecidableEq

namespace Event

/-- The tag of an event. -/
def type (event : Event) : EventType :=
  match event.data with
  | .none => .none
  | .pumpfunTrade _ => .pumpfunTrade
  | .raydiumSwap _ => .raydiumSwap

/-- The event of all zero bytes. -/
def zero : Event where
  signature := CString.empty
  terminated := by decide
  data := .none

instance : Inhabited Event := ⟨zero⟩

end Event

end YureiGeyser
