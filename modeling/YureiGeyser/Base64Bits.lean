import YureiGeyser.Base64

/-!
# Base64 as a bit string

Without pad characters the decoder packs the six-bit values of the letters into bytes, whatever
stands between the letters, and drops the bits of an incomplete last byte.
-/

namespace YureiGeyser

namespace Base64

open Positional

/-- The characters of the alphabet in an input. -/
def letters (input : List UInt8) : List UInt8 :=
  input.filter fun letter => letter ∈ alphabet

/-- The bits of the letters, six for each, from the most significant one on. -/
def letterBits (letters : List UInt8) : List ℕ :=
  respell 2 6 (letters.map fun letter => alphabet.idxOf letter)

/-- The bits of a byte string. -/
def byteBits (bytes : List UInt8) : List ℕ :=
  respell 2 8 (bytes.map UInt8.toNat)

theorem decodeTable_of_mem : ∀ letter ∈ alphabet,
    decodeTable letter ≠ ignored ∧ (decodeTable letter).toNat = alphabet.idxOf letter := by
  have all : (alphabet.all fun letter => decide (decodeTable letter ≠ ignored ∧
      (decodeTable letter).toNat = alphabet.idxOf letter)) = true := by
    decide +kernel
  exact fun letter member => of_decide_eq_true (List.all_eq_true.mp all letter member)

theorem decodeTable_of_not_mem {letter : UInt8} (foreign : letter ∉ alphabet)
    (not_pad : letter ≠ pad) : decodeTable letter = ignored := by
  rw [decodeTable, base64InitTable, Function.update_of_ne not_pad]
  rcases Search.fillTable_eq ignored
    (alphabet.zipIdx.map fun entry => (entry.1, UInt8.ofNat entry.2)) letter with
    untouched | ⟨_, member, same, _⟩
  · exact untouched
  · obtain ⟨entry, indexed, rfl⟩ := List.mem_map.mp member
    exact absurd (same ▸ List.fst_mem_of_mem_zipIdx indexed) foreign

/-- Without pad characters the loop sees the values of the letters. -/
theorem symbols_eq_letters {input : List UInt8} (unpadded : pad ∉ input) :
    symbols input = (letters input).map fun letter => alphabet.idxOf letter := by
  induction input with
  | nil => rfl
  | cons letter input ih =>
      rw [List.mem_cons, not_or] at unpadded
      rw [symbols_cons, letters]
      by_cases known : letter ∈ alphabet
      · obtain ⟨kept, value⟩ := decodeTable_of_mem letter known
        rw [if_neg kept, List.filter_cons, if_pos (decide_eq_true known), List.map_cons, value,
          ih unpadded.2, letters]
      · have skipped := decodeTable_of_not_mem known (Ne.symm unpadded.1)
        rw [if_pos skipped, List.filter_cons, if_neg (by simpa using known), ih unpadded.2, letters]

theorem letters_length_le (input : List UInt8) : (letters input).length ≤ input.length :=
  List.length_filter_le _ _

theorem idxOf_lt_of_mem_letters {input : List UInt8} {symbol : ℕ}
    (member : symbol ∈ (letters input).map fun letter => alphabet.idxOf letter) : symbol < 64 := by
  obtain ⟨letter, inside, rfl⟩ := List.mem_map.mp member
  exact List.idxOf_lt_length_of_mem (of_decide_eq_true (List.mem_filter.mp inside).2)

/-- The bits of the emitted bytes are the leading bits of the symbols. -/
theorem byteBits_emitted {symbols : List ℕ} (bounded : ∀ symbol ∈ symbols, symbol < 64) :
    byteBits (emitted symbols) =
      (respell 2 6 symbols).take (8 * (6 * symbols.length / 8)) := by
  have bits : ∀ digit ∈ respell 2 6 symbols, digit < 2 := respell_lt (by norm_num) 6 symbols
  have regrouped : value 2 (respell 2 6 symbols) = value 64 symbols := value_respell bounded
  have whole : value 64 symbols < 64 ^ symbols.length := value_lt (by norm_num) bounded
  apply value_injective (show 1 < 2 by norm_num)
  · rw [byteBits, respell_length, List.length_map, emitted_length, List.length_take,
      respell_length]
    omega
  · exact respell_lt (by norm_num) 8 _
  · exact fun digit member => bits digit (List.mem_of_mem_take member)
  · have left_over : 6 * symbols.length - 8 * (6 * symbols.length / 8) =
        6 * symbols.length % 8 := by
      omega
    have width : 64 ^ symbols.length =
        2 ^ (6 * symbols.length % 8) * 256 ^ (6 * symbols.length / 8) := by
      rw [show 64 = 2 ^ 6 by rfl, show 256 = 2 ^ 8 by rfl, ← Nat.pow_mul, ← Nat.pow_mul,
        ← Nat.pow_add]
      congr 1
      omega
    have small : value 64 symbols / 2 ^ (6 * symbols.length % 8) <
        256 ^ (6 * symbols.length / 8) := by
      apply Nat.div_lt_of_lt_mul
      rwa [← width]
    rw [value_take (by norm_num) bits, regrouped, respell_length, left_over, byteBits,
      value_respell (toNat_lt _)]
    change bytesValue (emitted symbols) = _
    rw [emitted, bytesValue_fixedBytes, Nat.mod_eq_of_lt small]

theorem base64DecodedSize_of_unpadded {input : List UInt8} (unpadded : pad ∉ input) :
    base64DecodedSize input = (input.length + 3) / 4 * 3 := by
  have never : ∀ index, input[index]? ≠ some pad := fun index found =>
    unpadded (List.mem_of_getElem? found)
  rw [base64DecodedSize, trailingPadding, if_neg fun last => never _ last.2,
    if_neg fun second_last => never _ second_last.2]
  rfl

/-- The decoder of an input without pad characters returns the leading whole bytes of the bits of
its letters, never more than announced, and nothing but the letters matters. -/
theorem base64Decode_bits {input : List UInt8} (unpadded : pad ∉ input) {outCap : ℕ}
    (room : base64DecodedSize input ≤ outCap) :
    ∃ out, base64Decode input outCap = .ok (some out) ∧
      out.length = 6 * (letters input).length / 8 ∧
      byteBits out = (letterBits (letters input)).take (8 * (6 * (letters input).length / 8)) ∧
      out.length ≤ base64DecodedSize input ∧
      ∀ other capacity, pad ∉ other → base64DecodedSize other ≤ capacity →
        letters other = letters input → base64Decode other capacity = .ok (some out) := by
  have decodes : ∀ other capacity, pad ∉ other → base64DecodedSize other ≤ capacity →
      base64Decode other capacity =
        .ok (some (emitted ((letters other).map fun letter => alphabet.idxOf letter))) := by
    intro other capacity unpadded' enough
    have fewer := letters_length_le other
    have size := base64DecodedSize_of_unpadded unpadded'
    rw [base64Decode_eq, symbols_eq_letters unpadded', List.length_map, if_neg (by omega),
      if_pos (by omega)]
  have fewer := letters_length_le input
  have size := base64DecodedSize_of_unpadded unpadded
  have bounded : ∀ symbol ∈ (letters input).map fun letter => alphabet.idxOf letter,
      symbol < 64 := fun _ => idxOf_lt_of_mem_letters
  have bits := byteBits_emitted bounded
  rw [List.length_map] at bits
  refine ⟨_, decodes input outCap unpadded room, ?_, bits, ?_, ?_⟩
  · rw [emitted_length, List.length_map]
  · rw [emitted_length, List.length_map]
    omega
  · intro other capacity unpadded' enough same
    rw [decodes other capacity unpadded' enough, same]

/-- Two letters, a blank and a line feed. -/
theorem base64Decode_bits_blank :
    ∃ out, base64Decode (ascii "T W" ++ [10]) 6 = .ok (some out) ∧
      out.length = 6 * (letters (ascii "T W" ++ [10])).length / 8 ∧
      byteBits out = (letterBits (letters (ascii "T W" ++ [10]))).take
        (8 * (6 * (letters (ascii "T W" ++ [10])).length / 8)) := by
  obtain ⟨out, decoded, length, bits, -⟩ :=
    @base64Decode_bits (ascii "T W" ++ [10]) (by decide) 6 (by decide)
  exact ⟨out, decoded, length, bits⟩

end Base64

end YureiGeyser
