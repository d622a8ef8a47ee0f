import Mathlib.Data.UInt
import Mathlib.Logic.Function.Basic
import YureiGeyser.CString
import YureiGeyser.Library.Positional

/-!
# Base64

`base64Decode` follows the source: one capacity check from the length and the last two characters,
then a loop over all characters that emits a byte whenever eight bits have arrived.  The pad
character has value zero in the table and goes through the loop as data.

The loop state after any input is a closed form of the symbols seen so far (`decoderAfter`), so the
whole function is one equation (`base64Decode_eq`) and every result below is arithmetic on it.
-/

namespace YureiGeyser

namespace Base64

open Positional

/-! ## The source -/

/-- The alphabet of `base64_init_table`. -/
def alphabet : List UInt8 :=
  ascii "ABCDEFGHIJKLMNOPQRSTUVWXYZabcdefghijklmnopqrstuvwxyz0123456789+/"

/-- The pad character `=`. -/
def pad : UInt8 := 61

/-- The table entry of a character outside the alphabet. -/
def ignored : UInt8 := 0x80

/-- The table as `base64_init_table` fills it: every entry, then the alphabet, then the pad. -/
def base64InitTable : UInt8 → UInt8 :=
  Function.update
    (Search.fillTable ignored (alphabet.zipIdx.map fun entry => (entry.1, UInt8.ofNat entry.2)))
    pad 0

/-- `decode_table`, once it is ready. -/
def decodeTable (letter : UInt8) : UInt8 :=
  base64InitTable letter

/-- The pad characters among the last two, as `base64_decoded_size` counts them. -/
def trailingPadding (input : List UInt8) : ℕ :=
  (if 1 ≤ input.length ∧ input[input.length - 1]? = some pad then 1 else 0) +
    if 2 ≤ input.length ∧ input[input.length - 2]? = some pad then 1 else 0

/-- `base64_decoded_size`. -/
def base64DecodedSize (input : List UInt8) : ℕ :=
  (input.length + 3) / 4 * 3 - trailingPadding input

/-- The local variables of the decoding loop; `out_index` is the length of `out`. -/
structure Decoder where
  /-- The bytes stored so far. -/
  out : List UInt8
  /-- The shift register. -/
  buffer : UInt32
  /-- The number of bits in the register that are not yet stored. -/
  bitsCollected : ℕ
  deriving DecidableEq

/-- One iteration of the decoding loop, for an output buffer of `outCap` bytes. -/
def decodeChar (outCap : ℕ) (decoder : Decoder) (letter : UInt8) : Except Fault Decoder :=
  let val := decodeTable letter
  if val = ignored then
    .ok decoder
  else
    let buffer := (decoder.buffer <<< 6) ||| val.toUInt32
    let bitsCollected := decoder.bitsCollected + 6
    if 8 ≤ bitsCollected then
      let bitsCollected := bitsCollected - 8
      if decoder.out.length < outCap then
        .ok
          { out := decoder.out ++ [(buffer >>> UInt32.ofNat bitsCollected).toUInt8]
            buffer, bitsCollected }
      else
        .error .outOfBounds
    else
      .ok { out := decoder.out, buffer, bitsCollected }

/-- `base64_decode` into a buffer of `outCap` bytes: `none` is the return value `-1`, otherwise the
first `*produced` bytes of the buffer. -/
def base64Decode (input : List UInt8) (outCap : ℕ) : Except Fault (Option (List UInt8)) :=
  if outCap < base64DecodedSize input then
    .ok none
  else
    (input.foldlM (decodeChar outCap) { out := [], buffer := 0, bitsCollected := 0 }).map
      fun decoder => some decoder.out

/-! ## The loop in closed form -/

/-- The values of the characters that the loop does not skip. -/
def symbols (input : List UInt8) : List ℕ :=
  ((input.map decodeTable).filter (· ≠ ignored)).map UInt8.toNat

/-- The bytes emitted for a list of six-bit symbols: the leading whole bytes of their bit string. -/
def emitted (symbols : List ℕ) : List UInt8 :=
  fixedBytes (6 * symbols.length / 8) (value 64 symbols / 2 ^ (6 * symbols.length % 8))

/-- The loop state after a list of six-bit symbols. -/
def decoderAfter (symbols : List ℕ) : Decoder where
  out := emitted symbols
  buffer := UInt32.ofNat (value 64 symbols)
  bitsCollected := 6 * symbols.length % 8

@[simp] theorem emitted_length (symbols : List ℕ) :
    (emitted symbols).length = 6 * symbols.length / 8 := by
  simp [emitted]

@[simp] theorem decoderAfter_out (symbols : List ℕ) :
    (decoderAfter symbols).out = emitted symbols := rfl

@[simp] theorem decoderAfter_bitsCollected (symbols : List ℕ) :
    (decoderAfter symbols).bitsCollected = 6 * symbols.length % 8 := rfl

theorem decodeTable_lt {letter : UInt8} (kept : decodeTable letter ≠ ignored) :
    (decodeTable letter).toNat < 64 := by
  by_cases padded : letter = pad
  · rw [decodeTable, base64InitTable, padded, Function.update_self]
    decide
  rw [decodeTable, base64InitTable, Function.update_of_ne padded] at kept ⊢
  rcases Search.fillTable_eq ignored
    (alphabet.zipIdx.map fun entry => (entry.1, UInt8.ofNat entry.2)) letter with
    untouched | ⟨_, member, _, stored⟩
  · exact absurd untouched kept
  · obtain ⟨entry, indexed, rfl⟩ := List.mem_map.mp member
    have index_lt : entry.2 < 64 := by
      simpa [alphabet, ascii] using List.snd_lt_of_mem_zipIdx indexed
    rw [stored, UInt8.toNat_ofNat']
    omega

private theorem register_shift (accumulated symbol : ℕ) (small : symbol < 64) :
    (UInt32.ofNat accumulated <<< 6) ||| UInt32.ofNat symbol =
      UInt32.ofNat (64 * accumulated + symbol) := by
  apply UInt32.toNat.inj
  have shifted : ((UInt32.ofNat accumulated) <<< (6 : UInt32)).toNat =
      (accumulated % 2 ^ 26) <<< 6 := by
    rw [UInt32.toNat_shiftLeft, UInt32.toNat_ofNat', show (6 : UInt32).toNat % 32 = 6 from rfl,
      Nat.shiftLeft_eq, Nat.shiftLeft_eq]
    omega
  have unchanged : (UInt32.ofNat symbol).toNat = symbol := by
    rw [UInt32.toNat_ofNat', Nat.mod_eq_of_lt (by omega)]
  rw [UInt32.toNat_or, shifted, unchanged, ← Nat.shiftLeft_add_eq_or_of_lt small,
    Nat.shiftLeft_eq, UInt32.toNat_ofNat']
  omega

private theorem register_byte (accumulated bits : ℕ) (bounded : bits ≤ 24) :
    (UInt32.ofNat accumulated >>> UInt32.ofNat bits).toUInt8 =
      UInt8.ofNat (accumulated / 2 ^ bits) := by
  apply UInt8.toNat.inj
  have exponent : (UInt32.ofNat bits).toNat % 32 = bits := by
    rw [UInt32.toNat_ofNat', Nat.mod_eq_of_lt (by omega), Nat.mod_eq_of_lt (by omega)]
  have width : 2 ^ 32 = 2 ^ bits * 2 ^ (32 - bits) := by
    rw [← Nat.pow_add]
    congr 1
    omega
  have byte_dvd : 2 ^ 8 ∣ 2 ^ (32 - bits) := Nat.pow_dvd_pow 2 (by omega)
  rw [UInt32.toNat_toUInt8, UInt32.toNat_shiftRight, exponent, UInt32.toNat_ofNat',
    Nat.shiftRight_eq_div_pow, width, Nat.mod_mul_right_div_self, Nat.mod_mod_of_dvd _ byte_dvd]
  simp

private theorem emitted_concat_short (seen : List ℕ) (symbol : ℕ) (small : symbol < 64)
    (short : 6 * seen.length % 8 = 0) : emitted (seen ++ [symbol]) = emitted seen := by
  have width : 6 * (seen ++ [symbol]).length / 8 = 6 * seen.length / 8 := by
    rw [List.length_append, List.length_singleton]
    omega
  have left_over : 6 * (seen ++ [symbol]).length % 8 = 6 := by
    rw [List.length_append, List.length_singleton]
    omega
  rw [emitted, emitted, width, left_over, short, value_concat]
  congr 1
  omega

private theorem emitted_concat_full (seen : List ℕ) (symbol : ℕ) (small : symbol < 64)
    (full : 2 ≤ 6 * seen.length % 8) :
    emitted (seen ++ [symbol]) =
      emitted seen ++
        [UInt8.ofNat ((64 * value 64 seen + symbol) / 2 ^ (6 * seen.length % 8 - 2))] := by
  set left_over := 6 * seen.length % 8 with left_over_eq
  have width : 6 * (seen ++ [symbol]).length / 8 = 6 * seen.length / 8 + 1 := by
    rw [List.length_append, List.length_singleton]
    omega
  have remaining : 6 * (seen ++ [symbol]).length % 8 = left_over - 2 := by
    rw [List.length_append, List.length_singleton]
    omega
  have earlier : (64 * value 64 seen + symbol) / 2 ^ (left_over - 2) / 256 =
      value 64 seen / 2 ^ left_over := by
    have exponent : 2 ^ (left_over - 2) * 256 = 64 * 2 ^ left_over := by
      obtain ⟨extra, extra_eq⟩ := Nat.exists_eq_add_of_le full
      rw [extra_eq, Nat.add_sub_cancel_left, Nat.pow_add]
      omega
    rw [Nat.div_div_eq_div_mul, exponent, ← Nat.div_div_eq_div_mul]
    congr 1
    omega
  rw [emitted, emitted, width, remaining, value_concat, fixedBytes, fixed, List.map_append, earlier,
    List.map_singleton, ← left_over_eq, fixedBytes]
  congr 2
  apply UInt8.toNat.inj
  simp

/-- What one character does to the loop state: it is skipped, it is collected, or the byte it
completes has no room. -/
theorem decodeChar_decoderAfter (outCap : ℕ) (seen : List ℕ) (letter : UInt8)
    (room : 6 * seen.length / 8 ≤ outCap) :
    decodeChar outCap (decoderAfter seen) letter =
      if decodeTable letter = ignored then .ok (decoderAfter seen)
      else if 6 * (seen.length + 1) / 8 ≤ outCap then
        .ok (decoderAfter (seen ++ [(decodeTable letter).toNat]))
      else .error .outOfBounds := by
  rw [decodeChar]
  by_cases skipped : decodeTable letter = ignored
  · simp [skipped]
  have small := decodeTable_lt skipped
  have widened : (decodeTable letter).toUInt32 = UInt32.ofNat (decodeTable letter).toNat := by
    apply UInt32.toNat.inj
    rw [UInt8.toNat_toUInt32, UInt32.toNat_ofNat', Nat.mod_eq_of_lt (by omega)]
  have shifted : ((decoderAfter seen).buffer <<< 6) ||| (decodeTable letter).toUInt32 =
      (decoderAfter (seen ++ [(decodeTable letter).toNat])).buffer := by
    rw [widened, decoderAfter, decoderAfter, value_concat]
    exact register_shift _ _ small
  have length_eq : (seen ++ [(decodeTable letter).toNat]).length = seen.length + 1 := by simp
  simp only [if_neg skipped, shifted, decoderAfter_out, decoderAfter_bitsCollected, emitted_length]
  -- A byte is complete exactly when two, four or six bits were left over before this character.
  by_cases full : 8 ≤ 6 * seen.length % 8 + 6
  · have bits : 6 * seen.length % 8 + 6 - 8 = 6 * (seen.length + 1) % 8 := by omega
    rw [if_pos full, bits]
    by_cases fits : 6 * (seen.length + 1) / 8 ≤ outCap
    · have byte := emitted_concat_full seen (decodeTable letter).toNat small (by omega)
      rw [if_pos (by omega), if_pos fits]
      congr 1
      rw [decoderAfter, Decoder.mk.injEq, length_eq, byte, value_concat,
        register_byte _ _ (by omega), show 6 * seen.length % 8 - 2 = 6 * (seen.length + 1) % 8 by omega]
      exact ⟨rfl, rfl, rfl⟩
    · rw [if_neg (by omega), if_neg fits]
  · have same := emitted_concat_short seen (decodeTable letter).toNat small (by omega)
    rw [if_neg full, if_pos (by omega)]
    congr 1
    rw [decoderAfter, Decoder.mk.injEq, length_eq, same]
    exact ⟨rfl, rfl, by omega⟩

theorem symbols_cons (letter : UInt8) (input : List UInt8) :
    symbols (letter :: input) =
      if decodeTable letter = ignored then symbols input
      else (decodeTable letter).toNat :: symbols input := by
  by_cases skipped : decodeTable letter = ignored <;> simp [symbols, skipped]

private theorem decodeLoop_eq (outCap : ℕ) (input : List UInt8) (seen : List ℕ)
    (room : 6 * seen.length / 8 ≤ outCap) :
    input.foldlM (decodeChar outCap) (decoderAfter seen) =
      if 6 * (seen ++ symbols input).length / 8 ≤ outCap then
        .ok (decoderAfter (seen ++ symbols input))
      else .error .outOfBounds := by
  induction input generalizing seen with
  | nil =>
      rw [symbols, List.map_nil, List.filter_nil, List.map_nil, List.append_nil, if_pos room]
      rfl
  | cons letter input ih =>
      rw [List.foldlM_cons, decodeChar_decoderAfter outCap seen letter room, symbols_cons]
      by_cases skipped : decodeTable letter = ignored
      · rw [if_pos skipped, if_pos skipped]
        exact ih seen room
      rw [if_neg skipped, if_neg skipped]
      by_cases fits : 6 * (seen.length + 1) / 8 ≤ outCap
      · rw [if_pos fits]
        have rest := ih (seen ++ [(decodeTable letter).toNat]) (by simpa using fits)
        rw [List.append_assoc, List.singleton_append] at rest
        exact rest
      · rw [if_neg fits, if_neg]
        · rfl
        · rw [List.length_append, List.length_cons]
          omega

/-- The whole function: refused, overrun, or the leading bytes of the symbols' bit string. -/
theorem base64Decode_eq (input : List UInt8) (outCap : ℕ) :
    base64Decode input outCap =
      if outCap < base64DecodedSize input then .ok none
      else if 6 * (symbols input).length / 8 ≤ outCap then
        .ok (some (emitted (symbols input)))
      else .error .outOfBounds := by
  have start : ({ out := [], buffer := 0, bitsCollected := 0 } : Decoder) = decoderAfter [] := rfl
  rw [base64Decode, start, decodeLoop_eq outCap input [] (by simp), List.nil_append]
  split
  · rfl
  · split <;> rfl

/-! ## Bounds -/

/-- The number of characters that the loop skips. -/
def ignoredCount (input : List UInt8) : ℕ :=
  input.countP fun letter => decodeTable letter = ignored

theorem symbols_length_add_ignoredCount (input : List UInt8) :
    (symbols input).length + ignoredCount input = input.length := by
  induction input with
  | nil => rfl
  | cons letter input ih =>
      rw [symbols_cons, ignoredCount, List.countP_cons, List.length_cons, ← ignoredCount]
      by_cases skipped : decodeTable letter = ignored
      · simp only [skipped, if_true, decide_true]
        omega
      · simp only [skipped, if_false, List.length_cons, decide_false, Bool.false_eq_true]
        omega

theorem trailingPadding_le (input : List UInt8) :
    trailingPadding input ≤ 2 ∧ trailingPadding input ≤ input.length := by
  rw [trailingPadding]
  split <;> split <;> omega

/-- The call stores nothing past its buffer and, when it succeeds, produces no more than
`base64_decoded_size` announced. -/
def StaysInBounds (input : List UInt8) (outCap : ℕ) : Prop :=
  ∃ result, base64Decode input outCap = .ok result ∧
    ∀ out, result = some out →
      out.length ≤ base64DecodedSize input ∧ base64DecodedSize input ≤ outCap

/-- The pad characters that the size estimate subtracts are outweighed by characters that the loop
skips; three characters more than a multiple of four leave one byte of slack. -/
def PaddingAbsorbed (input : List UInt8) : Prop :=
  (input.length % 4 = 0 → trailingPadding input ≤ ignoredCount input) ∧
    (input.length % 4 = 3 → trailingPadding input ≤ ignoredCount input + 1)

private theorem produced_le_iff (input : List UInt8) :
    6 * (symbols input).length / 8 ≤ base64DecodedSize input ↔ PaddingAbsorbed input := by
  have counted := symbols_length_add_ignoredCount input
  obtain ⟨padding_le, padding_le_length⟩ := trailingPadding_le input
  rw [base64DecodedSize, PaddingAbsorbed]
  constructor
  · intro estimate
    constructor <;> intro residue <;> omega
  · rintro ⟨whole, slack⟩
    by_cases multiple : input.length % 4 = 0
    · have := whole multiple
      omega
    by_cases three : input.length % 4 = 3
    · have := slack three
      omega
    rcases (by omega : input.length % 4 = 1 ∨ input.length % 4 = 2) with one | two
    · omega
    · omega

/-- The decoder stays in bounds exactly on the inputs that it refuses and on those whose trailing
padding is absorbed. -/
theorem staysInBounds_iff (input : List UInt8) (outCap : ℕ) :
    StaysInBounds input outCap ↔
      outCap < base64DecodedSize input ∨ PaddingAbsorbed input := by
  rw [StaysInBounds, base64Decode_eq]
  by_cases refused : outCap < base64DecodedSize input
  · simp [refused]
  rw [if_neg refused, ← produced_le_iff]
  constructor
  · rintro ⟨result, decoded, bounded⟩
    right
    by_cases fits : 6 * (symbols input).length / 8 ≤ outCap
    · rw [if_pos fits] at decoded
      have produced := (bounded (emitted (symbols input)) (Except.ok.inj decoded).symm).1
      rwa [emitted_length] at produced
    · rw [if_neg fits] at decoded
      contradiction
  · rintro (refused' | estimate)
    · exact absurd refused' refused
    · refine ⟨some (emitted (symbols input)), ?_, ?_⟩
      · rw [if_pos (by omega)]
      · intro out produced
        obtain rfl := Option.some.inj produced
        rw [emitted_length]
        omega

/-- Four characters for two bytes: the third byte is stored past a two-byte buffer. -/
theorem not_staysInBounds_padded_pair : ¬ StaysInBounds (ascii "QUI=") 2 := by
  rintro ⟨result, decoded, _⟩
  have overrun : base64Decode (ascii "QUI=") 2 = .error .outOfBounds := by decide +kernel
  rw [overrun] at decoded
  contradiction

end Base64

end YureiGeyser
