import YureiGeyser.Base64

/-!
# Base64 against RFC 4648

`encode` is the padded encoding of RFC 4648.  `base64Decode` sees the pad characters as symbols of
value zero, so it returns the encoded bytes followed by one zero byte for every pad character
(`base64Decode_encode`).
-/

namespace YureiGeyser

namespace Base64

open Positional

/-- The letter of a six-bit value. -/
def letter (symbol : ℕ) : UInt8 :=
  alphabet.getD symbol 0

/-- The padded encoding of a byte string, three bytes to four letters. -/
def encode : List UInt8 → List UInt8
  | [] => []
  | [first] => [letter (first.toNat / 4), letter (first.toNat % 4 * 16), pad, pad]
  | [first, second] =>
      [letter (first.toNat / 4), letter (first.toNat % 4 * 16 + second.toNat / 16),
        letter (second.toNat % 16 * 4), pad]
  | first :: second :: third :: rest =>
      letter (first.toNat / 4) :: letter (first.toNat % 4 * 16 + second.toNat / 16) ::
        letter (second.toNat % 16 * 4 + third.toNat / 64) :: letter (third.toNat % 64) ::
          encode rest

/-- The number of pad characters in the encoding of `length` bytes. -/
def padLength (length : ℕ) : ℕ :=
  (3 - length % 3) % 3

private theorem letter_ne : ∀ symbol < 64, letter symbol ≠ pad ∧ letter symbol ≠ 0 := by
  decide +kernel

private theorem decodeTable_letter :
    ∀ symbol < 64, decodeTable (letter symbol) = UInt8.ofNat symbol := by
  decide +kernel

private theorem symbols_letter_cons {symbol : ℕ} (small : symbol < 64) (input : List UInt8) :
    symbols (letter symbol :: input) = symbol :: symbols input := by
  have entry : (decodeTable (letter symbol)).toNat = symbol := by
    rw [decodeTable_letter symbol small, UInt8.toNat_ofNat']
    omega
  have kept : decodeTable (letter symbol) ≠ ignored := by
    intro skipped
    rw [skipped] at entry
    subst entry
    contradiction
  rw [symbols_cons, if_neg kept, entry]

private theorem symbols_pad_cons (input : List UInt8) :
    symbols (pad :: input) = 0 :: symbols input := by
  have entry : decodeTable pad = 0 := by decide +kernel
  rw [symbols_cons, entry]
  rfl

theorem encode_ne_zero (bytes : List UInt8) : ∀ letter ∈ encode bytes, letter ≠ 0 := by
  have nonzero : ∀ symbol < 64, letter symbol ≠ 0 := fun symbol small =>
    (letter_ne symbol small).2
  have pad_ne : pad ≠ 0 := by decide
  induction bytes using encode.induct with
  | case1 => simp [encode]
  | case2 first =>
      have := first.toNat_lt
      simp only [encode, List.forall_mem_cons]
      refine ⟨nonzero _ (by omega), nonzero _ (by omega), pad_ne, pad_ne, by simp⟩
  | case3 first second =>
      have := first.toNat_lt
      have := second.toNat_lt
      simp only [encode, List.forall_mem_cons]
      refine ⟨nonzero _ (by omega), nonzero _ (by omega), nonzero _ (by omega), pad_ne, by simp⟩
  | case4 first second third rest ih =>
      have := first.toNat_lt
      have := second.toNat_lt
      have := third.toNat_lt
      simp only [encode, List.forall_mem_cons]
      exact ⟨nonzero _ (by omega), nonzero _ (by omega), nonzero _ (by omega),
        nonzero _ (by omega), ih⟩

theorem encode_length (bytes : List UInt8) :
    (encode bytes).length = 4 * ((bytes.length + 2) / 3) := by
  induction bytes using encode.induct with
  | case1 => rfl
  | case2 first => simp [encode]
  | case3 first second => simp [encode]
  | case4 first second third rest ih =>
      simp only [encode, List.length_cons, ih]
      omega

theorem symbols_encode_length (bytes : List UInt8) :
    (symbols (encode bytes)).length = (encode bytes).length := by
  induction bytes using encode.induct with
  | case1 => rfl
  | case2 first =>
      have := first.toNat_lt
      rw [encode, symbols_letter_cons (by omega), symbols_letter_cons (by omega), symbols_pad_cons,
        symbols_pad_cons]
      rfl
  | case3 first second =>
      have := first.toNat_lt
      have := second.toNat_lt
      rw [encode, symbols_letter_cons (by omega), symbols_letter_cons (by omega),
        symbols_letter_cons (by omega), symbols_pad_cons]
      rfl
  | case4 first second third rest ih =>
      have := first.toNat_lt
      have := second.toNat_lt
      have := third.toNat_lt
      rw [encode, symbols_letter_cons (by omega), symbols_letter_cons (by omega),
        symbols_letter_cons (by omega), symbols_letter_cons (by omega)]
      simp only [List.length_cons, ih]

private theorem group_width (length : ℕ) :
    256 ^ length * 256 ^ padLength length = 64 ^ (4 * ((length + 2) / 3)) := by
  have exponent : 8 * (length + padLength length) = 6 * (4 * ((length + 2) / 3)) := by
    rw [padLength]
    omega
  rw [← Nat.pow_add, show 256 = 2 ^ 8 by rfl, show 64 = 2 ^ 6 by rfl, ← Nat.pow_mul, ← Nat.pow_mul,
    exponent]

/-- The symbols of an encoding spell the encoded bytes, shifted by the padding. -/
theorem value_symbols_encode (bytes : List UInt8) :
    value 64 (symbols (encode bytes)) = bytesValue bytes * 256 ^ padLength bytes.length := by
  induction bytes using encode.induct with
  | case1 => rfl
  | case2 first =>
      have := first.toNat_lt
      rw [encode, symbols_letter_cons (by omega), symbols_letter_cons (by omega), symbols_pad_cons,
        symbols_pad_cons]
      simp only [value_cons, bytesValue_cons, symbols, padLength, List.length_cons, List.length_nil,
        List.map_nil, List.filter_nil, value_nil, bytesValue_nil]
      norm_num
      omega
  | case3 first second =>
      have := first.toNat_lt
      have := second.toNat_lt
      rw [encode, symbols_letter_cons (by omega), symbols_letter_cons (by omega),
        symbols_letter_cons (by omega), symbols_pad_cons]
      simp only [value_cons, bytesValue_cons, symbols, padLength, List.length_cons, List.length_nil,
        List.map_nil, List.filter_nil, value_nil, bytesValue_nil]
      norm_num
      omega
  | case4 first second third rest ih =>
      have := first.toNat_lt
      have := second.toNat_lt
      have := third.toNat_lt
      have padding : padLength (rest.length + 1 + 1 + 1) = padLength rest.length := by
        rw [padLength, padLength]
        omega
      have width := group_width rest.length
      rw [encode, symbols_letter_cons (by omega), symbols_letter_cons (by omega),
        symbols_letter_cons (by omega), symbols_letter_cons (by omega)]
      simp only [value_cons, bytesValue_cons, List.length_cons, ih, padding, symbols_encode_length,
        encode_length, Nat.pow_succ, ← width]
      set scale := 256 ^ rest.length * 256 ^ padLength rest.length
      have group : first.toNat / 4 * 64 * 64 * 64 +
          (first.toNat % 4 * 16 + second.toNat / 16) * 64 * 64 +
          (second.toNat % 16 * 4 + third.toNat / 64) * 64 + third.toNat % 64 =
            first.toNat * 65536 + second.toNat * 256 + third.toNat := by
        omega
      calc
        _ = (first.toNat / 4 * 64 * 64 * 64 +
              (first.toNat % 4 * 16 + second.toNat / 16) * 64 * 64 +
              (second.toNat % 16 * 4 + third.toNat / 64) * 64 + third.toNat % 64) * scale +
            bytesValue rest * 256 ^ padLength rest.length := by
          ring
        _ = (first.toNat * 65536 + second.toNat * 256 + third.toNat) * scale +
            bytesValue rest * 256 ^ padLength rest.length := by
          rw [group]
        _ = _ := by
          ring

/-- The loop emits the encoded bytes and one zero byte for every pad character. -/
theorem emitted_symbols_encode (bytes : List UInt8) :
    emitted (symbols (encode bytes)) = bytes ++ List.replicate (padLength bytes.length) 0 := by
  have groups : 6 * (4 * ((bytes.length + 2) / 3)) / 8 = bytes.length + padLength bytes.length := by
    rw [padLength]
    omega
  have whole : 6 * (4 * ((bytes.length + 2) / 3)) % 8 = 0 := by omega
  have padded := fixedBytes_bytesValue (bytes ++ List.replicate (padLength bytes.length) 0)
  rw [List.length_append, List.length_replicate, bytesValue_append, List.length_replicate,
    bytesValue_replicate_zero, Nat.add_zero] at padded
  rw [emitted, symbols_encode_length, encode_length, value_symbols_encode, groups, whole, Nat.pow_zero,
    Nat.div_one, padded]

private theorem trailingPadding_append (front back : List UInt8) (two : 2 ≤ back.length) :
    trailingPadding (front ++ back) = trailingPadding back := by
  have last : front.length + back.length - 1 - front.length = back.length - 1 := by omega
  have second_last : front.length + back.length - 2 - front.length = back.length - 2 := by omega
  rw [trailingPadding, trailingPadding, List.length_append,
    List.getElem?_append_right (by omega), List.getElem?_append_right (by omega), last, second_last]
  simp only [show 1 ≤ front.length + back.length by omega, show 1 ≤ back.length by omega,
    show 2 ≤ front.length + back.length by omega, two]

private theorem trailingPadding_encode (bytes : List UInt8) :
    trailingPadding (encode bytes) = padLength bytes.length := by
  have not_pad : ∀ symbol < 64, letter symbol ≠ pad := fun symbol small =>
    (letter_ne symbol small).1
  induction bytes using encode.induct with
  | case1 => rfl
  | case2 first => rfl
  | case3 first second =>
      have := second.toNat_lt
      have third_letter := not_pad (second.toNat % 16 * 4) (by omega)
      simp [encode, trailingPadding, padLength, third_letter]
  | case4 first second third rest ih =>
      have := second.toNat_lt
      have := third.toNat_lt
      have third_letter := not_pad (second.toNat % 16 * 4 + third.toNat / 64) (by omega)
      have fourth_letter := not_pad (third.toNat % 64) (by omega)
      have padding : padLength (rest.length + 1 + 1 + 1) = padLength rest.length := by
        rw [padLength, padLength]
        omega
      rw [encode]
      rcases Nat.eq_zero_or_pos rest.length with none_left | some_left
      · obtain rfl := List.length_eq_zero_iff.mp none_left
        simp [encode, trailingPadding, padLength, third_letter, fourth_letter]
      · have two : 2 ≤ (encode rest).length := by
          rw [encode_length]
          omega
        simp only [List.length_cons, padding, ← ih]
        exact trailingPadding_append [_, _, _, _] (encode rest) two

/-- `base64_decoded_size` is exact on encodings. -/
theorem base64DecodedSize_encode (bytes : List UInt8) :
    base64DecodedSize (encode bytes) = bytes.length := by
  rw [base64DecodedSize, encode_length, trailingPadding_encode, padLength]
  omega

/-- Decoding an encoding: refused below the announced size, overrun when the zero bytes of the
padding have no room, and otherwise the bytes with those zeros behind them. -/
theorem base64Decode_encode (bytes : List UInt8) (outCap : ℕ) :
    base64Decode (encode bytes) outCap =
      if outCap < bytes.length then .ok none
      else if bytes.length + padLength bytes.length ≤ outCap then
        .ok (some (bytes ++ List.replicate (padLength bytes.length) 0))
      else .error .outOfBounds := by
  have produced : 6 * (symbols (encode bytes)).length / 8 = bytes.length + padLength bytes.length := by
    rw [← emitted_length, emitted_symbols_encode, List.length_append, List.length_replicate]
  rw [base64Decode_eq, base64DecodedSize_encode, produced, emitted_symbols_encode]

/-- Decoding the encoding of a byte string gives its length and the byte string back. -/
def DecodesEncoding (bytes : List UInt8) (outCap : ℕ) : Prop :=
  base64DecodedSize (encode bytes) = bytes.length ∧
    base64Decode (encode bytes) outCap = .ok (some bytes)

/-- The decoder undoes the encoding exactly when the encoding has no padding. -/
theorem decodesEncoding_iff (bytes : List UInt8) (outCap : ℕ) (room : bytes.length ≤ outCap) :
    DecodesEncoding bytes outCap ↔ bytes.length % 3 = 0 := by
  rw [DecodesEncoding, base64DecodedSize_encode, base64Decode_encode, if_neg (by omega)]
  constructor
  · rintro ⟨_, decoded⟩
    split at decoded
    · have same := Option.some.inj (Except.ok.inj decoded)
      have lengths := congrArg List.length same
      rw [List.length_append, List.length_replicate, padLength] at lengths
      omega
    · contradiction
  · intro unpadded
    have no_pad : padLength bytes.length = 0 := by
      rw [padLength]
      omega
    simp [no_pad, room]

/-- Three bytes in a three-byte buffer. -/
theorem decodesEncoding_iff_triple :
    [77, 97, 110].length ≤ 3 ∧
      (DecodesEncoding [77, 97, 110] 3 ↔ [77, 97, 110].length % 3 = 0) :=
  ⟨by decide, decodesEncoding_iff [77, 97, 110] 3 (by decide)⟩

/-- One byte comes back as three, whatever the room. -/
theorem not_decodesEncoding_single : ¬ DecodesEncoding [77] 3 := by
  have decoded : base64Decode (encode [77]) 3 = .ok (some [77, 0, 0]) := by decide +kernel
  rintro ⟨_, returned⟩
  rw [decoded] at returned
  have := Option.some.inj (Except.ok.inj returned)
  contradiction

end Base64

end YureiGeyser
