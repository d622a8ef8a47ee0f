import Mathlib.Data.UInt
import YureiGeyser.CString
import YureiGeyser.Library.Positional

/-!
# Base58

Both directions convert radix in place, one `Positional.mulAdd` pass over a scratch array for each
input symbol, with the leading zeros counted separately.  The scratch arrays are always wide
enough, so each function is one equation over minimal spellings (`base58Encode_eq` and
`base58Decode_eq`).
-/

namespace YureiGeyser

namespace Base58

open Positional

/-! ## The source -/

/-- `ALPHABET`. -/
def alphabet : List UInt8 :=
  ascii "123456789ABCDEFGHJKLMNPQRSTUVWXYZabcdefghijkmnopqrstuvwxyz"

/-- The letter of digit zero, `1`. -/
def zeroLetter : UInt8 := 49

/-- The loop that counts the leading entries equal to `zero`. -/
def leading (zero : UInt8) (entries : List UInt8) : ℕ :=
  (entries.takeWhile (· == zero)).length

/-- `MAP` as `base58_init_map` fills it. -/
def base58InitMap : UInt8 → ℤ :=
  Search.fillTable (-1) (alphabet.zipIdx.map fun entry => (entry.1, (entry.2 : ℤ)))

/-- The digit of a character: `-1` for a foreign one and for every byte with the high bit set. -/
def digitOf (letter : UInt8) : ℤ :=
  if letter &&& 0x80 ≠ 0 then -1 else base58InitMap letter

/-- One iteration of the decoding loop. -/
def decodeChar (tmp : List ℕ) (letter : UInt8) : Option (List ℕ) :=
  let val := digitOf letter
  if val < 0 then none else some (mulAdd 256 58 tmp val.toNat).1

/-- `base58_decode` into `outLen` bytes, for one outcome of `calloc`: `none` is the return value
`-1`, otherwise the bytes written, as many as the return value. -/
def base58Decode (calloc : Bool) (input : CString) (outLen : ℕ) : Option (List UInt8) :=
  let len := input.strlen
  let zeros := leading zeroLetter input.bytes
  let tmpLen := len * 733 / 1000 + 1
  if calloc then do
    let tmp ← (input.bytes.drop zeros).foldlM decodeChar (List.replicate tmpLen 0)
    let significant := tmp.dropWhile (· == 0)
    let total := zeros + significant.length
    if total > outLen then none
    else some (List.replicate zeros 0 ++ significant.map UInt8.ofNat)
  else
    none

/-- `ALPHABET[digit]`, for the digits below 58 that the encoder produces. -/
def letterOf (digit : ℕ) : UInt8 :=
  alphabet.getD digit zeroLetter

theorem letterOf_ne_zero (digit : ℕ) : letterOf digit ≠ 0 := by
  have entries : ∀ letter ∈ alphabet, letter ≠ 0 := by
    have all : alphabet.all (· != 0) = true := by decide +kernel
    exact fun letter member => bne_iff_ne.mp (List.all_eq_true.mp all letter member)
  rw [letterOf, List.getD_eq_getElem?_getD]
  cases found : alphabet[digit]? with
  | none => decide
  | some letter => exact entries letter (List.mem_of_getElem? found)

/-- The string that the encoder stores: the leading ones, the letters and the terminator. -/
def base58Text (zeros : ℕ) (digits : List ℕ) : CString where
  bytes := List.replicate zeros zeroLetter ++ digits.map letterOf
  noNul := by
    intro byte member
    rcases List.mem_append.mp member with member | member
    · rw [List.eq_of_mem_replicate member]
      decide
    · obtain ⟨digit, _, rfl⟩ := List.mem_map.mp member
      exact letterOf_ne_zero digit

/-- `base58_encode` into `outLen` bytes, for one outcome of `calloc`: `none` is the return value
`-1`, otherwise the string written, whose length is the return value. -/
def base58Encode (calloc : Bool) (input : List UInt8) (outLen : ℕ) : Option CString :=
  let len := input.length
  let zeros := leading 0 input
  let tmpLen := len * 138 / 100 + 1
  if calloc then
    let tmp := (input.drop zeros).foldl (fun tmp byte => (mulAdd 58 256 tmp byte.toNat).1)
      (List.replicate tmpLen 0)
    let significant := tmp.dropWhile (· == 0)
    let total := zeros + significant.length
    if total + 1 > outLen then none else some (base58Text zeros significant)
  else
    none

/-! ## Leading zeros -/

theorem leading_le_length (zero : UInt8) (entries : List UInt8) :
    leading zero entries ≤ entries.length :=
  (List.takeWhile_sublist _).length_le

theorem replicate_leading_append_drop (zero : UInt8) (entries : List UInt8) :
    List.replicate (leading zero entries) zero ++ entries.drop (leading zero entries) = entries := by
  induction entries with
  | nil => rfl
  | cons entry entries ih =>
      by_cases here : entry = zero
      · subst here
        simpa [leading, List.replicate_succ] using ih
      · simp [leading, here]

theorem leading_replicate_append (zero : UInt8) (count : ℕ) (rest : List UInt8)
    (stops : rest.head? ≠ some zero) : leading zero (List.replicate count zero ++ rest) = count := by
  induction count with
  | zero =>
      cases rest with
      | nil => rfl
      | cons entry rest =>
          have other : entry ≠ zero := by simpa using stops
          simp [leading, other]
  | succ count ih => simpa [leading, List.replicate_succ] using ih

theorem drop_leading_head (zero : UInt8) (entries : List UInt8) :
    (entries.drop (leading zero entries)).head? ≠ some zero := by
  induction entries with
  | nil => simp
  | cons entry entries ih =>
      by_cases here : entry = zero
      · subst here
        simpa [leading] using ih
      · simp [leading, here]

theorem bytesValue_drop_leading (input : List UInt8) :
    bytesValue (input.drop (leading 0 input)) = bytesValue input := by
  conv_rhs => rw [← replicate_leading_append_drop 0 input]
  rw [bytesValue_append, bytesValue_replicate_zero, Nat.zero_mul, Nat.zero_add]

/-! ## Encoding -/

/-- The base-58 digits that the encoder writes after the leading ones. -/
def encodedDigits (input : List UInt8) : List ℕ :=
  minimal 58 (bytesValue input)

private theorem encode_width (length : ℕ) : 256 ^ length < 58 ^ (length * 138 / 100 + 1) :=
  pow_lt_pow_estimate (by norm_num) (by norm_num) (by norm_num) length

/-- The scratch digits of the encoder have room for the value. -/
theorem bytesValue_drop_leading_lt (input : List UInt8) :
    bytesValue (input.drop (leading 0 input)) < 58 ^ (input.length * 138 / 100 + 1) := by
  rw [bytesValue_drop_leading]
  exact (bytesValue_lt input).trans (encode_width input.length)

/-- The encoder writes the leading ones and the minimal digits of the value, or nothing when they
and the terminator do not fit. -/
theorem base58Encode_eq (input : List UInt8) (outLen : ℕ) :
    base58Encode true input outLen =
      if leading 0 input + (encodedDigits input).length + 1 ≤ outLen then
        some (base58Text (leading 0 input) (encodedDigits input))
      else none := by
  have digits := convert_dropWhile (by norm_num) (by norm_num) _ (bytesValue_drop_leading_lt input)
  rw [convert, List.foldl_map, ← bytesValue, bytesValue_drop_leading, ← encodedDigits] at digits
  simp only [base58Encode, if_true, digits]
  by_cases room : leading 0 input + (encodedDigits input).length + 1 ≤ outLen
  · rw [if_neg (by omega), if_pos room]
  · rw [if_pos (by omega), if_neg room]

theorem strlen_base58Text (zeros : ℕ) (digits : List ℕ) :
    (base58Text zeros digits).strlen = zeros + digits.length := by
  rw [CString.strlen, base58Text, List.length_append, List.length_replicate, List.length_map]

/-- In a buffer with room for the text and its terminator the text is written. -/
theorem base58Encode_of_room {input : List UInt8} {outLen : ℕ}
    (room : (base58Text (leading 0 input) (encodedDigits input)).strlen < outLen) :
    base58Encode true input outLen =
      some (base58Text (leading 0 input) (encodedDigits input)) := by
  rw [strlen_base58Text] at room
  rw [base58Encode_eq, if_pos (Nat.succ_le_of_lt room)]

theorem base58Encode_strlen_lt {calloc : Bool} {input : List UInt8} {outLen : ℕ} {text : CString}
    (encoded : base58Encode calloc input outLen = some text) : text.strlen < outLen := by
  cases calloc with
  | false => cases encoded
  | true =>
      rw [base58Encode_eq] at encoded
      split at encoded
      · obtain rfl := Option.some.inj encoded
        rw [strlen_base58Text]
        omega
      · cases encoded

/-! ## Decoding -/

/-- The digits of a string over the alphabet. -/
def digitsOf (letters : List UInt8) : List ℕ :=
  letters.map fun letter => (digitOf letter).toNat

theorem digitOf_toNat_lt (letter : UInt8) : (digitOf letter).toNat < 58 := by
  rw [digitOf]
  split
  · decide
  rcases Search.fillTable_eq (-1 : ℤ)
    (alphabet.zipIdx.map fun entry => (entry.1, (entry.2 : ℤ))) letter with
    untouched | ⟨_, member, _, stored⟩
  · rw [base58InitMap, untouched]
    decide
  · obtain ⟨entry, indexed, rfl⟩ := List.mem_map.mp member
    have index_lt : entry.2 < 58 := by
      simpa [alphabet, ascii] using List.snd_lt_of_mem_zipIdx indexed
    rw [base58InitMap, stored]
    omega

theorem digitsOf_lt (letters : List UInt8) : ∀ digit ∈ digitsOf letters, digit < 58 := by
  intro digit member
  obtain ⟨letter, _, rfl⟩ := List.mem_map.mp member
  exact digitOf_toNat_lt letter

theorem digitOf_letterOf : ∀ digit < 58, digitOf (letterOf digit) = digit := by
  decide +kernel

theorem letterOf_ne_zeroLetter : ∀ digit < 58, digit ≠ 0 → letterOf digit ≠ zeroLetter := by
  decide +kernel

theorem digitsOf_map_letterOf {digits : List ℕ} (bounded : ∀ digit ∈ digits, digit < 58) :
    digitsOf (digits.map letterOf) = digits := by
  rw [digitsOf, List.map_map]
  conv_rhs => rw [← List.map_id digits]
  apply List.map_congr_left
  intro digit member
  simp [digitOf_letterOf digit (bounded digit member)]

private theorem decode_width (length : ℕ) : 58 ^ length < 256 ^ (length * 733 / 1000 + 1) :=
  pow_lt_pow_estimate (by norm_num) (by norm_num) (by decide +kernel) length

theorem decodeLoop_eq (letters : List UInt8) (tmp : List ℕ)
    (known : ∀ letter ∈ letters, 0 ≤ digitOf letter) :
    letters.foldlM decodeChar tmp =
      some ((digitsOf letters).foldl (fun tmp digit => (mulAdd 256 58 tmp digit).1) tmp) := by
  induction letters generalizing tmp with
  | nil => rfl
  | cons letter letters ih =>
      have here : ¬ digitOf letter < 0 := not_lt.mpr (known letter List.mem_cons_self)
      rw [List.foldlM_cons, decodeChar]
      simp only [if_neg here]
      exact ih _ fun later member => known later (List.mem_cons_of_mem letter member)

/-- The scratch bytes of the decoder have room for the value of any part of its input. -/
theorem value_digitsOf_lt {letters : List UInt8} {length : ℕ} (part : letters.length ≤ length) :
    value 58 (digitsOf letters) < 256 ^ (length * 733 / 1000 + 1) := by
  have small := value_lt (by norm_num) (digitsOf_lt letters)
  rw [digitsOf, List.length_map, ← digitsOf] at small
  exact (small.trans_le (Nat.pow_le_pow_right (by norm_num) part)).trans (decode_width _)

/-- On strings over the alphabet the decoder writes one zero byte for every leading one and then
the minimal bytes of the value, or nothing when they do not fit. -/
theorem base58Decode_eq (input : CString) (outLen : ℕ)
    (known : ∀ letter ∈ input.bytes.drop (leading zeroLetter input.bytes), 0 ≤ digitOf letter) :
    base58Decode true input outLen =
      let zeros := leading zeroLetter input.bytes
      let bytes := minimal 256 (value 58 (digitsOf (input.bytes.drop zeros)))
      if zeros + bytes.length ≤ outLen then
        some (List.replicate zeros 0 ++ bytes.map UInt8.ofNat)
      else none := by
  have part : (input.bytes.drop (leading zeroLetter input.bytes)).length ≤ input.strlen := by
    simp [CString.strlen]
  have digits := convert_dropWhile (by norm_num) (by norm_num) _ (value_digitsOf_lt part)
  rw [convert] at digits
  simp only [base58Decode, if_true, decodeLoop_eq _ _ known, Option.bind_eq_bind, Option.bind_some,
    digits]
  set zeros := leading zeroLetter input.bytes
  set bytes := minimal 256 (value 58 (digitsOf (input.bytes.drop zeros)))
  by_cases room : zeros + bytes.length ≤ outLen
  · rw [if_neg (by omega), if_pos room]
  · rw [if_pos (by omega), if_neg room]

/-! ## Round trip -/

private theorem leading_base58Text (zeros number : ℕ) :
    leading zeroLetter (base58Text zeros (minimal 58 number)).bytes = zeros := by
  apply leading_replicate_append
  cases spelled : minimal 58 number with
  | nil => simp
  | cons digit digits =>
      have nonzero := minimal_head_ne_zero digit digits spelled
      have member : digit ∈ minimal 58 number := by
        rw [spelled]
        exact List.mem_cons_self
      have small : digit < 58 := minimal_lt (by norm_num) digit member
      simpa using letterOf_ne_zeroLetter digit small nonzero

private theorem drop_base58Text (zeros : ℕ) (digits : List ℕ) :
    (base58Text zeros digits).bytes.drop zeros = digits.map letterOf := by
  rw [base58Text, List.drop_left' (by simp)]

private theorem minimal_bytesValue (input : List UInt8) :
    (minimal 256 (bytesValue input)).map UInt8.ofNat = input.drop (leading 0 input) := by
  have no_leading : ((input.drop (leading 0 input)).map UInt8.toNat).dropWhile (· == 0) =
      (input.drop (leading 0 input)).map UInt8.toNat := by
    have head := drop_leading_head 0 input
    cases remaining : input.drop (leading 0 input) with
    | nil => rfl
    | cons byte bytes =>
        have byte_ne : byte.toNat ≠ 0 := by
          rw [remaining] at head
          intro zero
          exact head (by simpa using UInt8.toNat.inj zero)
        rw [List.map_cons, List.dropWhile_cons_of_neg (by simpa using byte_ne)]
  rw [← bytesValue_drop_leading, bytesValue, ← dropWhile_eq_minimal (by norm_num) _ (toNat_lt _),
    no_leading, map_ofNat_map_toNat]

/-- Decoding what the encoder wrote gives the input back. -/
theorem base58Decode_base58Encode {input : List UInt8} {outLen : ℕ} {text : CString}
    (encoded : base58Encode true input outLen = some text) {capacity : ℕ}
    (room : input.length ≤ capacity) : base58Decode true text capacity = some input := by
  rw [base58Encode_eq] at encoded
  split at encoded
  · obtain rfl := Option.some.inj encoded
    set zeros := leading 0 input
    have leading_eq : leading zeroLetter (base58Text zeros (encodedDigits input)).bytes = zeros :=
      leading_base58Text zeros (bytesValue input)
    have letters_eq := drop_base58Text zeros (encodedDigits input)
    have bounded : ∀ digit ∈ encodedDigits input, digit < 58 := minimal_lt (by norm_num)
    rw [base58Decode_eq]
    · dsimp only
      rw [leading_eq, letters_eq, digitsOf_map_letterOf bounded, encodedDigits, value_minimal]
      have bytes_eq := minimal_bytesValue input
      have width : zeros + (minimal 256 (bytesValue input)).length = input.length := by
        have lengths := congrArg List.length bytes_eq
        have le := leading_le_length 0 input
        rw [List.length_map, List.length_drop] at lengths
        omega
      rw [width, if_pos room, bytes_eq, replicate_leading_append_drop]
    · rw [leading_eq, letters_eq]
      intro letter member
      obtain ⟨digit, digit_mem, rfl⟩ := List.mem_map.mp member
      rw [digitOf_letterOf digit (bounded digit digit_mem)]
      omega
  · contradiction

/-- The encoder succeeds exactly when the value is below a power of 58. -/
theorem base58Encode_isSome_iff (input : List UInt8) (outLen : ℕ)
    (room : leading 0 input < outLen) :
    (base58Encode true input outLen).isSome ↔
      bytesValue input < 58 ^ (outLen - 1 - leading 0 input) := by
  rw [base58Encode_eq, ← minimal_length_le_iff (by norm_num), encodedDigits]
  split
  · simp only [Option.isSome_some, true_iff]
    omega
  · simp only [Option.isSome_none, Bool.false_eq_true, false_iff]
    omega

/-- A buffer of the size that the scratch digits suggest is always large enough. -/
theorem base58Encode_isSome_of_room {input : List UInt8} {outLen : ℕ}
    (room : input.length * 138 / 100 + 2 ≤ outLen) : (base58Encode true input outLen).isSome := by
  have leading_le := leading_le_length 0 input
  have small : bytesValue input <
      58 ^ ((input.length - leading 0 input) * 138 / 100 + 1) := by
    have below := bytesValue_lt (input.drop (leading 0 input))
    rw [bytesValue_drop_leading, List.length_drop] at below
    exact below.trans (encode_width _)
  have digits := (minimal_length_le_iff (by norm_num) _ _).mpr small
  rw [base58Encode_eq, if_pos]
  · rfl
  · rw [encodedDigits]
    omega

end Base58

end YureiGeyser
