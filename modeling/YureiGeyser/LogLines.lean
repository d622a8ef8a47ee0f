import YureiGeyser.LogTrades

/-!
# The two readers of a PumpFun log line

`pumpfun_parse_log_line` repeats what `process_pumpfun` does with a line, but it decodes into 512
bytes instead of 768.
-/

namespace YureiGeyser

open Base64

/-- `pumpfun_parse_log_line`; a null pointer is `none`. -/
def pumpfunParseLogLine (logLine : Option CString) : Except Fault (Option PumpfunTrade) :=
  match logLine with
  | none => .ok none
  | some logLine =>
      match logLine.strstr programData with
      | none => .ok none
      | some pos =>
          let pos := pos.drop programData.strlen
          if pos.length = 0 then .ok none
          else
            match base64Decode pos 512 with
            | .error fault => .error fault
            | .ok none => .ok none
            | .ok (some buffer) => .ok (pumpfunParseTrade buffer)

/-- Both readers accept the line with the same trade, or both refuse it. -/
def ReadersAgree (line : CString) : Prop :=
  pumpfunParseLogLine (some line) = .ok (lineTrade line)

/-! ## Readers -/

/-- What a reader with a buffer of `bufLen` bytes makes of a line. -/
def readTrade (bufLen : ℕ) (line : CString) : Except Fault (Option PumpfunTrade) :=
  match decodeProgramDataLine line bufLen with
  | .error fault => .error fault
  | .ok none => .ok none
  | .ok (some decoded) => .ok (pumpfunParseTrade decoded)

/-- The public reader has a buffer of 512 bytes. -/
theorem pumpfunParseLogLine_eq (line : CString) :
    pumpfunParseLogLine (some line) = readTrade 512 line := by
  simp only [pumpfunParseLogLine, readTrade, decodeProgramDataLine]
  cases line.strstr programData with
  | none => rfl
  | some pos =>
      dsimp only
      split <;> rfl

/-- The reader of `process_pumpfun` has one of 768 bytes, which is never overrun. -/
theorem readTrade_lineTrade (line : CString) : readTrade 768 line = .ok (lineTrade line) := by
  obtain ⟨result, decodes⟩ := decodeProgramDataLine_ok line (show 768 % 3 = 0 from rfl)
  rw [readTrade, lineTrade, decodes]
  cases result with
  | none => rfl
  | some decoded => rfl

/-- The text behind the first marker of a line. -/
def payload (line : CString) : List UInt8 :=
  match line.strstr programData with
  | none => []
  | some pos => pos.drop programData.strlen

theorem decodeProgramDataLine_eq (line : CString) (bufLen : ℕ) :
    decodeProgramDataLine line bufLen =
      if (payload line).length = 0 then .ok none else base64Decode (payload line) bufLen := by
  rw [decodeProgramDataLine, payload]
  cases line.strstr programData with
  | none => rfl
  | some pos => rfl

theorem pumpfunParseTrade_isSome_iff (data : List UInt8) :
    (pumpfunParseTrade data).isSome ↔ 250 ≤ data.length := by
  rw [pumpfunParseTrade]
  split
  · next complete => exact iff_of_true rfl complete
  · next short => exact iff_of_false Bool.false_ne_true short

/-- A reader refuses the line, reads the trade, or stores past its buffer because the pad characters
decode to more than announced. -/
theorem readTrade_eq (bufLen : ℕ) (line : CString) :
    readTrade bufLen line =
      if bufLen < base64DecodedSize (payload line) then .ok none
      else if 6 * (symbols (payload line)).length / 8 ≤ bufLen then
        .ok (pumpfunParseTrade (emitted (symbols (payload line))))
      else .error .outOfBounds := by
  rw [readTrade, decodeProgramDataLine_eq]
  by_cases empty : (payload line).length = 0
  · have nothing : pumpfunParseTrade (emitted (symbols [])) = none := by
      rw [← Option.not_isSome_iff_eq_none, pumpfunParseTrade_isSome_iff]
      decide
    have announced : ¬ bufLen < base64DecodedSize [] := Nat.not_lt_zero bufLen
    have decoded : 6 * (symbols []).length / 8 ≤ bufLen := Nat.zero_le bufLen
    rw [if_pos empty, List.length_eq_zero_iff.mp empty, if_neg announced, if_pos decoded, nothing]
  · rw [if_neg empty, base64Decode_eq]
    by_cases refused : bufLen < base64DecodedSize (payload line)
    · rw [if_pos refused, if_pos refused]
    · rw [if_neg refused, if_neg refused]
      by_cases fits : 6 * (symbols (payload line)).length / 8 ≤ bufLen
      · rw [if_pos fits, if_pos fits]
      · rw [if_neg fits, if_neg fits]

/-! ## Agreement -/

/-- The larger buffer holds a trade that the smaller one has no room for. -/
def FitsLargerOnly (line : CString) : Prop :=
  334 ≤ (symbols (payload line)).length ∧ base64DecodedSize (payload line) ≤ 768 ∧
    (512 < base64DecodedSize (payload line) ∨ 684 ≤ (symbols (payload line)).length)

/-- Up to 768 announced bytes no more are decoded. -/
theorem decoded_le {input : List UInt8} (announced : base64DecodedSize input ≤ 768) :
    6 * (symbols input).length / 8 ≤ 768 := by
  have counted := symbols_length_add_ignoredCount input
  obtain ⟨padding_le, -⟩ := trailingPadding_le input
  rw [base64DecodedSize] at announced
  omega

theorem not_readersAgree {line : CString} (larger : FitsLargerOnly line) :
    ¬ ReadersAgree line := by
  obtain ⟨complete, announced, overflow⟩ := larger
  have accepted : (pumpfunParseTrade (emitted (symbols (payload line)))).isSome := by
    rw [pumpfunParseTrade_isSome_iff, emitted_length]
    omega
  rw [ReadersAgree, pumpfunParseLogLine_eq, ← readTrade_lineTrade, readTrade_eq 768,
    if_neg (not_lt.mpr announced), if_pos (decoded_le announced), readTrade_eq]
  intro same
  split at same
  · rw [← Except.ok.inj same] at accepted
    cases accepted
  · next small =>
      rw [if_neg (by omega)] at same
      cases same

/-- The readers agree exactly on the lines whose trade, if there is one, fits into the smaller
buffer or into neither. -/
theorem readersAgree_iff (line : CString) : ReadersAgree line ↔ ¬ FitsLargerOnly line := by
  constructor
  · exact fun agree larger => not_readersAgree larger agree
  · intro same
    rw [FitsLargerOnly] at same
    rw [ReadersAgree, pumpfunParseLogLine_eq, ← readTrade_lineTrade, readTrade_eq 768,
      readTrade_eq]
    by_cases announced : base64DecodedSize (payload line) ≤ 768
    · rw [if_neg (not_lt.mpr announced), if_pos (decoded_le announced)]
      by_cases complete : 334 ≤ (symbols (payload line)).length
      · rw [if_neg (by omega), if_pos (by omega)]
      · have refused : pumpfunParseTrade (emitted (symbols (payload line))) = none := by
          rw [← Option.not_isSome_iff_eq_none, pumpfunParseTrade_isSome_iff, emitted_length]
          omega
        have decoded : 6 * (symbols (payload line)).length / 8 ≤ 512 := by omega
        rw [refused, if_pos decoded, ite_self]
    · rw [if_pos (not_le.mp announced), if_pos (by omega)]

theorem payload_programDataLine {front : CString} {bytes : List UInt8}
    (unmarked : ¬ programData.bytes <:+: front.bytes) :
    payload (programDataLine front bytes) = encode bytes := by
  rw [payload, strstr_programDataLine unmarked, CString.strlen]
  exact List.drop_left

/-- The log line of 513 zero bytes. -/
def longTradeLine : CString :=
  programDataLine CString.empty (List.replicate 513 0)

/-- A trade with 263 bytes behind it is read on the way to the queue only. -/
theorem not_readersAgree_long : ¬ ReadersAgree longTradeLine := by
  apply not_readersAgree
  have length : (List.replicate 513 (0 : UInt8)).length = 513 := List.length_replicate
  rw [FitsLargerOnly, longTradeLine, payload_programDataLine (by decide), symbols_encode_length,
    encode_length, base64DecodedSize_encode, length]
  decide

end YureiGeyser
