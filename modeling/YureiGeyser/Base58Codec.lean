import YureiGeyser.Base58

/-!
# The Base58 functions as a codec

`base58EncodeInto` and `base58DecodeInto` have the output buffer that `base58Encode` and
`base58Decode` leave to their caller.  The first two sections compare them with the reference
encoding and with the grammar of the decoder; the last one shows that the two directions are
inverse.
-/

namespace YureiGeyser

namespace Base58

open Positional

/-! ## Encoding into a buffer -/

/-- One iteration of the encoding loop: the scratch digits and the carry behind the inner loop. -/
def encodePass (tmp : List ℕ) (byte : UInt8) : List ℕ × ℕ :=
  mulAdd 58 256 tmp byte.toNat

/-- The scratch digits of `tmpLen` entries after the encoding loop. -/
def encodeScratch (tmpLen : ℕ) (bytes : List UInt8) : List ℕ :=
  bytes.foldl (fun tmp byte => (encodePass tmp byte).1) (List.replicate tmpLen 0)

/-- The loop that looks for the first digit that is not zero. -/
def firstSignificant (tmp : List ℕ) : ℕ :=
  (tmp.takeWhile (· == 0)).length

/-- `base58_encode` for one outcome of `calloc`: the return value and the buffer `out`. -/
def base58EncodeInto (calloc : Bool) (input out : List UInt8) (outLen : ℕ) :
    Except Fault (ℤ × List UInt8) :=
  let len := input.length
  let zeros := leading 0 input
  let tmpLen := len * 138 / 100 + 1
  if !calloc then
    .ok (-1, out)
  else
    let tmp := encodeScratch tmpLen (input.drop zeros)
    let start := firstSignificant tmp
    let total := zeros + (tmpLen - start)
    if total + 1 > outLen then
      .ok (-1, out)
    else do
      let out ← storeAll out 0 (List.replicate zeros zeroLetter)
      let out ← storeAll out zeros ((tmp.drop start).map letterOf)
      let pos := zeros + (tmpLen - start)
      let out ← store out pos 0
      return (pos, out)

theorem encodeScratch_eq_convert (tmpLen : ℕ) (bytes : List UInt8) :
    encodeScratch tmpLen bytes = convert 58 256 tmpLen (bytes.map UInt8.toNat) := by
  rw [encodeScratch, convert, List.foldl_map]
  rfl

theorem drop_firstSignificant (tmp : List ℕ) :
    tmp.drop (firstSignificant tmp) = tmp.dropWhile (· == 0) := by
  induction tmp with
  | nil => rfl
  | cons digit tmp ih =>
      by_cases zero : digit = 0
      · subst zero
        simpa [firstSignificant] using ih
      · simp [firstSignificant, zero]

/-- The encoder stores the text of `base58Encode` and its terminator, or nothing at all. -/
theorem base58EncodeInto_eq (calloc : Bool) (input : List UInt8) {out : List UInt8} {outLen : ℕ}
    (room : outLen ≤ out.length) :
    base58EncodeInto calloc input out outLen =
      .ok (match base58Encode calloc input outLen with
        | none => (-1, out)
        | some text => ((text.strlen : ℤ), text.bytes ++ 0 :: out.drop (text.strlen + 1))) := by
  cases calloc with
  | false => rfl
  | true =>
      set zeros := leading 0 input with zeros_eq
      set tmp := encodeScratch (input.length * 138 / 100 + 1) (input.drop zeros) with tmp_eq
      have significant : tmp.dropWhile (· == 0) = tmp.drop (firstSignificant tmp) :=
        (drop_firstSignificant tmp).symm
      have width : (tmp.drop (firstSignificant tmp)).length =
          input.length * 138 / 100 + 1 - firstSignificant tmp := by
        rw [List.length_drop, tmp_eq, encodeScratch_eq_convert, convert_length]
      set letters := tmp.drop (firstSignificant tmp)
      have encoded : base58Encode true input outLen =
          if zeros + letters.length + 1 > outLen then none
          else some (base58Text zeros letters) := by
        simp only [base58Encode, if_true]
        change (if zeros + (tmp.dropWhile (· == 0)).length + 1 > outLen then none
          else some (base58Text zeros (tmp.dropWhile (· == 0)))) = _
        rw [significant]
      rw [encoded, base58EncodeInto]
      simp only [Bool.not_true, Bool.false_eq_true, if_false, ← zeros_eq, ← tmp_eq, ← width]
      by_cases refused : zeros + letters.length + 1 > outLen
      · rw [if_pos refused, if_pos refused]
      · rw [if_neg refused, if_neg refused]
        have ones : (List.replicate zeros zeroLetter).length = zeros := List.length_replicate
        have written : (letters.map letterOf).length = letters.length := List.length_map _
        have stored := storeAll_terminated out (List.replicate zeros zeroLetter)
          (letters.map letterOf) (by omega)
        rw [ones, written] at stored
        have stores := congrArg
          (fun buffer =>
            buffer >>= fun out => pure (((zeros + letters.length : ℕ) : ℤ), out)) stored
        simp only [bind_assoc] at stores
        dsimp only
        rw [stores, strlen_base58Text]
        rfl

/-- The encoder stores the reference encoding if the buffer has room for it, and its scratch digits
always suffice. -/
theorem base58EncodeInto_reference (input : List UInt8) {out : List UInt8} {outLen : ℕ}
    (room : outLen ≤ out.length) :
    ∃ digits, Spells 58 digits (bytesValue input) ∧
      base58EncodeInto true input out outLen =
        .ok (if leading 0 input + digits.length + 1 ≤ outLen then
            (((leading 0 input + digits.length : ℕ) : ℤ),
              List.replicate (leading 0 input) zeroLetter ++ digits.map letterOf ++
                0 :: out.drop (leading 0 input + digits.length + 1))
          else (-1, out)) ∧
      ∀ front byte back, input.drop (leading 0 input) = front ++ byte :: back →
        (encodePass (encodeScratch (input.length * 138 / 100 + 1) front) byte).2 = 0 := by
  refine ⟨encodedDigits input, minimal_spells (by norm_num) _, ?_, ?_⟩
  · rw [base58EncodeInto_eq true input room, base58Encode_eq]
    by_cases fits : leading 0 input + (encodedDigits input).length + 1 ≤ outLen
    · rw [if_pos fits, if_pos fits]
      dsimp only
      rw [strlen_base58Text]
      rfl
    · rw [if_neg fits, if_neg fits]
  · intro front byte back split
    have fits := bytesValue_drop_leading_lt input
    rw [split, bytesValue, List.map_append, List.map_cons] at fits
    rw [encodeScratch_eq_convert]
    exact convert_carry (by norm_num) (by norm_num) _ _ _ fits

theorem base58EncodeInto_reference_short :
    ∃ digits, Spells 58 digits (bytesValue [0, 200]) ∧
      base58EncodeInto true [0, 200] [7, 7, 7, 7, 7] 4 =
        .ok (if leading 0 [0, 200] + digits.length + 1 ≤ 4 then
            (((leading 0 [0, 200] + digits.length : ℕ) : ℤ),
              List.replicate (leading 0 [0, 200]) zeroLetter ++ digits.map letterOf ++
                0 :: [7, 7, 7, 7, 7].drop (leading 0 [0, 200] + digits.length + 1))
          else (-1, [7, 7, 7, 7, 7])) ∧
      ∀ front byte back, [0, 200].drop (leading 0 [0, 200]) = front ++ byte :: back →
        (encodePass (encodeScratch ([0, 200].length * 138 / 100 + 1) front) byte).2 = 0 :=
  base58EncodeInto_reference [0, 200] (by decide)

/-! ## Decoding into a buffer -/

/-- `base58_decode` for one outcome of `calloc`: the return value and the buffer `out`. -/
def base58DecodeInto (calloc : Bool) (input : CString) (out : List UInt8) (outLen : ℕ) :
    Except Fault (ℤ × List UInt8) :=
  let len := input.strlen
  let zeros := leading zeroLetter input.bytes
  let tmpLen := len * 733 / 1000 + 1
  if !calloc then
    .ok (-1, out)
  else
    match (input.bytes.drop zeros).foldlM decodeChar (List.replicate tmpLen 0) with
    | none => .ok (-1, out)
    | some tmp =>
        let start := firstSignificant tmp
        let total := zeros + (tmpLen - start)
        if total > outLen then
          .ok (-1, out)
        else do
          let out ← storeAll out 0 (List.replicate zeros 0)
          let out ← storeAll out zeros ((tmp.drop start).map UInt8.ofNat)
          return (total, out)

/-- A string over the alphabet. -/
def OverAlphabet (letters : List UInt8) : Prop :=
  ∀ letter ∈ letters, letter ∈ alphabet

instance (letters : List UInt8) : Decidable (OverAlphabet letters) :=
  inferInstanceAs (Decidable (∀ letter ∈ letters, letter ∈ alphabet))

/-- The number that a string over the alphabet spells. -/
def lettersValue (letters : List UInt8) : ℕ :=
  value 58 (letters.map fun letter => alphabet.idxOf letter)

theorem letterOf_idxOf {letter : UInt8} (known : letter ∈ alphabet) :
    letterOf (alphabet.idxOf letter) = letter := by
  rw [letterOf, List.getD_eq_getElem?_getD, List.getElem?_idxOf known, Option.getD_some]

theorem digitOf_eq (letter : UInt8) :
    digitOf letter = if letter ∈ alphabet then (alphabet.idxOf letter : ℤ) else -1 := by
  by_cases known : letter ∈ alphabet
  · have index_lt : alphabet.idxOf letter < 58 := List.idxOf_lt_length_of_mem known
    have spelled := digitOf_letterOf (alphabet.idxOf letter) index_lt
    rw [letterOf_idxOf known] at spelled
    rw [if_pos known, spelled]
  · rw [if_neg known, digitOf]
    split
    · rfl
    rcases Search.fillTable_eq (-1 : ℤ)
      (alphabet.zipIdx.map fun entry => (entry.1, (entry.2 : ℤ))) letter with
      untouched | ⟨_, member, same, _⟩
    · exact untouched
    · obtain ⟨entry, indexed, rfl⟩ := List.mem_map.mp member
      exact absurd (same ▸ List.fst_mem_of_mem_zipIdx indexed) known

theorem digitOf_nonneg_iff (letter : UInt8) : 0 ≤ digitOf letter ↔ letter ∈ alphabet := by
  rw [digitOf_eq]
  split
  · next known => exact iff_of_true (Int.natCast_nonneg _) known
  · next foreign => exact iff_of_false (by decide) foreign

theorem digitsOf_eq {letters : List UInt8} (known : OverAlphabet letters) :
    digitsOf letters = letters.map fun letter => alphabet.idxOf letter := by
  apply List.map_congr_left
  intro letter member
  rw [digitOf_eq, if_pos (known letter member), Int.toNat_natCast]

/-- The base-256 digits that the decoder writes after the leading zero bytes. -/
def decodedDigits (input : CString) : List ℕ :=
  minimal 256 (lettersValue (input.bytes.drop (leading zeroLetter input.bytes)))

theorem overAlphabet_drop_leading (letters : List UInt8) :
    OverAlphabet (letters.drop (leading zeroLetter letters)) ↔ OverAlphabet letters := by
  constructor
  · intro known letter member
    rw [← replicate_leading_append_drop zeroLetter letters] at member
    rcases List.mem_append.mp member with member | member
    · rw [List.eq_of_mem_replicate member]
      decide
    · exact known letter member
  · intro known letter member
    exact known letter (List.mem_of_mem_drop member)

/-- The decoding loop stops at a foreign character. -/
theorem overAlphabet_of_foldlM {letters : List UInt8} {tmp result : List ℕ}
    (decoded : letters.foldlM decodeChar tmp = some result) : OverAlphabet letters := by
  induction letters generalizing tmp with
  | nil =>
      intro letter member
      cases member
  | cons letter letters ih =>
      obtain ⟨next, here, rest⟩ := Option.bind_eq_some_iff.mp decoded
      rw [decodeChar] at here
      split at here
      · cases here
      · next known =>
          intro other member
          rcases List.mem_cons.mp member with rfl | member
          · exact (digitOf_nonneg_iff other).mp (not_lt.mp known)
          · exact ih rest other member

/-- Over the alphabet the decoding loop is a radix conversion. -/
theorem foldlM_decodeChar {letters : List UInt8} (known : OverAlphabet letters) (tmpLen : ℕ) :
    letters.foldlM decodeChar (List.replicate tmpLen 0) =
      some (convert 256 58 tmpLen (digitsOf letters)) := by
  rw [decodeLoop_eq]
  · rfl
  · intro letter member
    exact (digitOf_nonneg_iff letter).mpr (known letter member)

/-- Over the alphabet the decoder writes one zero byte for every leading one and then the minimal
bytes of the value, or nothing when they do not fit. -/
theorem base58Decode_of_overAlphabet {input : CString} (known : OverAlphabet input.bytes)
    (outLen : ℕ) :
    base58Decode true input outLen =
      if leading zeroLetter input.bytes + (decodedDigits input).length ≤ outLen then
        some (List.replicate (leading zeroLetter input.bytes) 0 ++
          (decodedDigits input).map UInt8.ofNat)
      else none := by
  have rest := (overAlphabet_drop_leading input.bytes).mpr known
  rw [base58Decode_eq input outLen fun letter member =>
    (digitOf_nonneg_iff letter).mpr (rest letter member)]
  dsimp only
  rw [digitsOf_eq rest]
  rfl

/-- The decoder refuses every other string. -/
theorem base58Decode_eq_none {input : CString} (foreign : ¬ OverAlphabet input.bytes)
    (outLen : ℕ) : base58Decode true input outLen = none := by
  rw [base58Decode, if_pos rfl]
  cases decoded : (input.bytes.drop (leading zeroLetter input.bytes)).foldlM decodeChar
      (List.replicate (input.strlen * 733 / 1000 + 1) 0) with
  | none => rfl
  | some tmp =>
      exact absurd ((overAlphabet_drop_leading _).mp (overAlphabet_of_foldlM decoded)) foreign

/-- The decoder stores the bytes of `base58Decode`, or nothing at all. -/
theorem base58DecodeInto_eq (calloc : Bool) (input : CString) {out : List UInt8} {outLen : ℕ}
    (room : outLen ≤ out.length) :
    base58DecodeInto calloc input out outLen =
      .ok (match base58Decode calloc input outLen with
        | none => (-1, out)
        | some bytes => ((bytes.length : ℤ), bytes ++ out.drop bytes.length)) := by
  cases calloc with
  | false => rfl
  | true =>
      rw [base58Decode, base58DecodeInto]
      simp only [Bool.not_true, Bool.false_eq_true, if_false, if_true]
      set zeros := leading zeroLetter input.bytes
      cases decoded : (input.bytes.drop zeros).foldlM decodeChar
          (List.replicate (input.strlen * 733 / 1000 + 1) 0) with
      | none => rfl
      | some tmp =>
          have known := overAlphabet_of_foldlM decoded
          rw [foldlM_decodeChar known, Option.some.injEq] at decoded
          have width : tmp.length = input.strlen * 733 / 1000 + 1 := by
            rw [← decoded, convert_length]
          simp only [Option.bind_eq_bind, Option.bind_some, ← drop_firstSignificant, ← width,
            ← List.length_drop]
          set significant := tmp.drop (firstSignificant tmp)
          by_cases refused : zeros + significant.length > outLen
          · rw [if_pos refused, if_pos refused]
          · rw [if_neg refused, if_neg refused]
            have blank : (List.replicate zeros (0 : UInt8)).length = zeros := List.length_replicate
            have bytes : (significant.map UInt8.ofNat).length = significant.length :=
              List.length_map _
            have stored := storeAll_storeAll out (List.replicate zeros 0)
              (significant.map UInt8.ofNat) (by omega)
            rw [blank, bytes] at stored
            have stores := congrArg
              (fun buffer => buffer >>= fun out =>
                pure (((zeros + significant.length : ℕ) : ℤ), out)) stored
            simp only [bind_assoc] at stores
            dsimp only
            rw [stores, List.length_append, blank, bytes]
            rfl

/-- The decoder accepts the strings over the alphabet whose bytes fit, stores one zero byte for
every leading one and then the minimal bytes of the value, and its scratch bytes always suffice. -/
theorem base58DecodeInto_grammar (input : CString) {out : List UInt8} {outLen : ℕ}
    (room : outLen ≤ out.length) :
    let zeros := leading zeroLetter input.bytes
    let letters := input.bytes.drop zeros
    ∃ bytes, Spells 256 bytes (lettersValue letters) ∧
      base58DecodeInto true input out outLen =
        .ok (if OverAlphabet input.bytes ∧ zeros + bytes.length ≤ outLen then
            (((zeros + bytes.length : ℕ) : ℤ),
              List.replicate zeros 0 ++ bytes.map UInt8.ofNat ++ out.drop (zeros + bytes.length))
          else (-1, out)) ∧
      ∀ front letter back, letters = front ++ letter :: back → letter ∈ alphabet →
        ∀ tmp, front.foldlM decodeChar (List.replicate (input.strlen * 733 / 1000 + 1) 0) =
            some tmp →
          (mulAdd 256 58 tmp (digitOf letter).toNat).2 = 0 := by
  intro zeros letters
  refine ⟨decodedDigits input, minimal_spells (by norm_num) _, ?_, ?_⟩
  · rw [base58DecodeInto_eq true input room]
    by_cases known : OverAlphabet input.bytes
    · rw [base58Decode_of_overAlphabet known]
      simp only [known, true_and]
      by_cases fits : zeros + (decodedDigits input).length ≤ outLen
      · rw [if_pos fits, if_pos fits]
        dsimp only
        rw [List.length_append, List.length_replicate, List.length_map]
      · rw [if_neg fits, if_neg fits]
    · rw [base58Decode_eq_none known, if_neg fun accepted => known accepted.1]
  · intro front letter back split known tmp decoded
    have front_known := overAlphabet_of_foldlM decoded
    rw [foldlM_decodeChar front_known, Option.some.injEq] at decoded
    have part : (front ++ [letter]).length ≤ input.strlen := by
      have whole : letters.length ≤ input.strlen := by simp [letters, CString.strlen]
      rw [split, List.length_append, List.length_cons] at whole
      rw [List.length_append, List.length_singleton]
      omega
    have fits := value_digitsOf_lt part
    rw [digitsOf, List.map_append] at fits
    rw [← decoded]
    exact convert_carry (by norm_num) (by norm_num) _ _ [] fits

/-- Three letters, of which the first is a leading one. -/
def shortText : CString where
  bytes := ascii "1zz"
  noNul := by decide +kernel

theorem base58DecodeInto_grammar_short :
    let zeros := leading zeroLetter shortText.bytes
    let letters := shortText.bytes.drop zeros
    ∃ bytes, Spells 256 bytes (lettersValue letters) ∧
      base58DecodeInto true shortText [7, 7, 7, 7] 3 =
        .ok (if OverAlphabet shortText.bytes ∧ zeros + bytes.length ≤ 3 then
            (((zeros + bytes.length : ℕ) : ℤ),
              List.replicate zeros 0 ++ bytes.map UInt8.ofNat ++
                [7, 7, 7, 7].drop (zeros + bytes.length))
          else (-1, [7, 7, 7, 7])) ∧
      ∀ front letter back, letters = front ++ letter :: back → letter ∈ alphabet →
        ∀ tmp, front.foldlM decodeChar (List.replicate (shortText.strlen * 733 / 1000 + 1) 0) =
            some tmp →
          (mulAdd 256 58 tmp (digitOf letter).toNat).2 = 0 :=
  base58DecodeInto_grammar shortText (by decide)

/-! ## Inverse directions -/

/-- The digits behind the leading ones are the minimal spelling of their value. -/
theorem minimal_lettersValue {letters : List UInt8} (known : OverAlphabet letters)
    (stops : letters.head? ≠ some zeroLetter) :
    (minimal 58 (lettersValue letters)).map letterOf = letters := by
  have spells : Spells 58 (letters.map fun letter => alphabet.idxOf letter)
      (lettersValue letters) := by
    refine ⟨?_, ?_, rfl⟩
    · intro digit member
      obtain ⟨letter, inside, rfl⟩ := List.mem_map.mp member
      exact List.idxOf_lt_length_of_mem (known letter inside)
    · cases letters with
      | nil => simp
      | cons letter letters =>
          intro zero
          have first : alphabet.idxOf letter = 0 := by simpa using zero
          have spelled := letterOf_idxOf (known letter List.mem_cons_self)
          rw [first] at spelled
          exact stops (congrArg some spelled.symm)
  rw [← spells.eq_minimal (by norm_num), List.map_map]
  conv_rhs => rw [← List.map_id letters]
  apply List.map_congr_left
  intro letter member
  exact letterOf_idxOf (known letter member)

theorem overAlphabet_base58Text (zeros : ℕ) {digits : List ℕ}
    (bounded : ∀ digit ∈ digits, digit < 58) : OverAlphabet (base58Text zeros digits).bytes := by
  intro letter member
  rcases List.mem_append.mp member with member | member
  · rw [List.eq_of_mem_replicate member]
    decide
  · obtain ⟨digit, inside, rfl⟩ := List.mem_map.mp member
    have within : digit < alphabet.length := bounded digit inside
    rw [letterOf, List.getD_eq_getElem _ _ within]
    exact List.getElem_mem within

/-- The bytes that a string over the alphabet stands for. -/
def decodedBytes (input : CString) : List UInt8 :=
  List.replicate (leading zeroLetter input.bytes) 0 ++ (decodedDigits input).map UInt8.ofNat

theorem leading_decodedBytes (input : CString) :
    leading 0 (decodedBytes input) = leading zeroLetter input.bytes := by
  apply leading_replicate_append
  have spells := minimal_spells (by norm_num : 1 < 256)
    (lettersValue (input.bytes.drop (leading zeroLetter input.bytes)))
  rw [← decodedDigits] at spells
  cases spelled : decodedDigits input with
  | nil => simp
  | cons digit digits =>
      rw [spelled] at spells
      have small : digit < 256 := spells.bounded digit List.mem_cons_self
      have nonzero : digit ≠ 0 := by simpa using spells.leading
      intro zero
      have byte : UInt8.ofNat digit = 0 := by simpa using zero
      have number : (UInt8.ofNat digit).toNat = digit := UInt8.toNat_ofNat_of_lt small
      rw [byte] at number
      exact nonzero number.symm

theorem bytesValue_decodedBytes (input : CString) :
    bytesValue (decodedBytes input) =
      lettersValue (input.bytes.drop (leading zeroLetter input.bytes)) := by
  rw [decodedBytes, bytesValue_append, bytesValue_replicate_zero, Nat.zero_mul, Nat.zero_add,
    bytesValue, decodedDigits, map_toNat_map_ofNat (minimal_lt (by norm_num)), value_minimal]

/-- Encoding what the decoder made of a string over the alphabet gives the string back. -/
theorem base58Text_decodedBytes {input : CString} (known : OverAlphabet input.bytes) :
    base58Text (leading 0 (decodedBytes input)) (encodedDigits (decodedBytes input)) = input := by
  have rest := minimal_lettersValue ((overAlphabet_drop_leading _).mpr known)
    (drop_leading_head zeroLetter input.bytes)
  cases input with
  | mk bytes noNul =>
      simp only [base58Text, CString.mk.injEq]
      rw [leading_decodedBytes, encodedDigits, bytesValue_decodedBytes, rest]
      exact replicate_leading_append_drop zeroLetter bytes

/-- In a buffer with room for it the string is written. -/
theorem base58Encode_decodedBytes {input : CString} (known : OverAlphabet input.bytes)
    {outLen : ℕ} (room : input.strlen < outLen) :
    base58Encode true (decodedBytes input) outLen = some input := by
  have text := base58Text_decodedBytes known
  rw [base58Encode_of_room (text.symm ▸ room), text]

/-- Byte strings and strings over the alphabet correspond to each other, and in a buffer with room
for its result each function computes its direction. -/
theorem base58_inverse :
    (∀ input : List UInt8, ∃ text : CString, OverAlphabet text.bytes ∧
      (∀ outLen, text.strlen < outLen → base58Encode true input outLen = some text) ∧
      ∀ outLen, input.length ≤ outLen → base58Decode true text outLen = some input) ∧
    ∀ text : CString, OverAlphabet text.bytes → ∃ bytes : List UInt8,
      (∀ outLen, bytes.length ≤ outLen → base58Decode true text outLen = some bytes) ∧
      ∀ outLen, text.strlen < outLen → base58Encode true bytes outLen = some text := by
  constructor
  · intro input
    refine ⟨base58Text (leading 0 input) (encodedDigits input),
      overAlphabet_base58Text _ (minimal_lt (by norm_num)), fun _ => base58Encode_of_room, ?_⟩
    intro outLen room
    exact base58Decode_base58Encode (base58Encode_of_room (Nat.lt_succ_self _)) room
  · intro text known
    refine ⟨decodedBytes text, ?_, fun _ => base58Encode_decodedBytes known⟩
    intro outLen room
    rw [decodedBytes, List.length_append, List.length_replicate, List.length_map] at room
    rw [base58Decode_of_overAlphabet known, if_pos room]
    rfl

end Base58

end YureiGeyser
