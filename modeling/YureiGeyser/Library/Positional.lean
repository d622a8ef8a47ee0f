import Mathlib.Data.Nat.Digits.Lemmas
import Mathlib.Tactic.Ring
import Mathlib.Tactic.NormNum

/-!
# Big-endian positional notation

`value base digits` is the number spelled by a most-significant-first digit list.  Two digit lists
of one length with equal values are equal, the minimal spelling has no leading zero, and `mulAdd`
is the in-place multiply-and-add of schoolbook radix conversion.  Its carry is exactly the part of
the result that the array cannot hold.
-/

namespace Positional

/-- The number spelled by a most-significant-first digit list. -/
def value (base : ℕ) (digits : List ℕ) : ℕ :=
  Nat.ofDigits base digits.reverse

@[simp] theorem value_nil (base : ℕ) : value base [] = 0 := rfl

theorem value_append (base : ℕ) (left right : List ℕ) :
    value base (left ++ right) = value base left * base ^ right.length + value base right := by
  rw [value, List.reverse_append, Nat.ofDigits_append, List.length_reverse, ← value, ← value]
  ring

theorem value_cons (base digit : ℕ) (digits : List ℕ) :
    value base (digit :: digits) = digit * base ^ digits.length + value base digits := by
  simpa [value] using value_append base [digit] digits

theorem value_concat (base : ℕ) (digits : List ℕ) (digit : ℕ) :
    value base (digits ++ [digit]) = base * value base digits + digit := by
  rw [value_append]
  simp [value, Nat.mul_comm]

theorem value_replicate_zero (base count : ℕ) : value base (List.replicate count 0) = 0 := by
  simp [value]

theorem value_lt {base : ℕ} (one_lt : 1 < base) {digits : List ℕ}
    (bounded : ∀ digit ∈ digits, digit < base) : value base digits < base ^ digits.length := by
  have reversed : ∀ digit ∈ digits.reverse, digit < base := by simpa using bounded
  simpa [value] using Nat.ofDigits_lt_base_pow_length one_lt reversed

/-- A spelling of known width is determined by its value. -/
theorem value_injective {base : ℕ} (one_lt : 1 < base) {left right : List ℕ}
    (width : left.length = right.length) (left_bounded : ∀ digit ∈ left, digit < base)
    (right_bounded : ∀ digit ∈ right, digit < base)
    (same : value base left = value base right) : left = right := by
  apply List.reverse_injective
  exact Nat.ofDigits_inj_of_len_eq one_lt (by simpa using width) (by simpa using left_bounded)
    (by simpa using right_bounded) same

/-! ## Minimal spellings -/

/-- The spelling of a number without leading zeros; zero is the empty spelling. -/
def minimal (base number : ℕ) : List ℕ :=
  (Nat.digits base number).reverse

@[simp] theorem value_minimal (base number : ℕ) : value base (minimal base number) = number := by
  simp [value, minimal, Nat.ofDigits_digits]

theorem minimal_lt {base number : ℕ} (one_lt : 1 < base) :
    ∀ digit ∈ minimal base number, digit < base := by
  intro digit member
  exact Nat.digits_lt_base one_lt (by simpa [minimal] using member)

theorem minimal_length_le_iff {base : ℕ} (one_lt : 1 < base) (number width : ℕ) :
    (minimal base number).length ≤ width ↔ number < base ^ width := by
  have digits_le : (Nat.digits base number).length ≤ width ↔ number < base ^ width :=
    Nat.digits_length_le_iff one_lt number
  simpa [minimal] using digits_le

theorem minimal_head_ne_zero {base number : ℕ} (digit : ℕ) (digits : List ℕ)
    (spelled : minimal base number = digit :: digits) : digit ≠ 0 := by
  have reversed : Nat.digits base number = digits.reverse ++ [digit] := by
    simpa [minimal] using congrArg List.reverse spelled
  have number_ne : number ≠ 0 := by
    rintro rfl
    simp at reversed
  have last := Nat.getLast_digit_ne_zero base number_ne
  simpa [reversed] using last

/-- Discarding the leading zeros of a spelling leaves the minimal one. -/
theorem dropWhile_eq_minimal {base : ℕ} (one_lt : 1 < base) (digits : List ℕ)
    (bounded : ∀ digit ∈ digits, digit < base) :
    digits.dropWhile (· == 0) = minimal base (value base digits) := by
  induction digits with
  | nil => simp [minimal]
  | cons digit digits induction =>
      have tail_bounded : ∀ entry ∈ digits, entry < base := by
        intro entry member
        exact bounded entry (List.mem_cons_of_mem digit member)
      by_cases zero : digit = 0
      · subst zero
        rw [List.dropWhile_cons_of_pos (by simp), induction tail_bounded, value_cons]
        simp
      · rw [List.dropWhile_cons_of_neg (by simpa using zero), minimal, value]
        rw [Nat.digits_ofDigits base one_lt]
        · simp
        · intro entry member
          exact bounded entry (List.mem_reverse.mp member)
        · intro _
          simpa using zero

/-- The digits spell the number in a radix, without leading zeros. -/
structure Spells (base : ℕ) (digits : List ℕ) (number : ℕ) : Prop where
  bounded : ∀ digit ∈ digits, digit < base
  leading : digits.head? ≠ some 0
  value_eq : value base digits = number

theorem minimal_spells {base : ℕ} (one_lt : 1 < base) (number : ℕ) :
    Spells base (minimal base number) number where
  bounded := minimal_lt one_lt
  leading := by
    cases spelled : minimal base number with
    | nil => simp
    | cons digit digits => simpa using minimal_head_ne_zero digit digits spelled
  value_eq := value_minimal base number

/-- There is no other spelling without leading zeros. -/
theorem Spells.eq_minimal {base number : ℕ} (one_lt : 1 < base) {digits : List ℕ}
    (spells : Spells base digits number) : digits = minimal base number := by
  have kept : digits.dropWhile (· == 0) = digits := by
    have leading := spells.leading
    cases digits with
    | nil => rfl
    | cons digit digits => exact List.dropWhile_cons_of_neg (by simpa using leading)
  rw [← spells.value_eq, ← dropWhile_eq_minimal one_lt digits spells.bounded, kept]

/-! ## Fixed-width spellings -/

/-- The spelling of the low `width` digits of a number. -/
def fixed (base : ℕ) : ℕ → ℕ → List ℕ
  | 0, _ => []
  | width + 1, number => fixed base width (number / base) ++ [number % base]

@[simp] theorem fixed_length (base width number : ℕ) : (fixed base width number).length = width := by
  induction width generalizing number with
  | zero => rfl
  | succ width induction => simp [fixed, induction]

theorem fixed_lt {base : ℕ} (positive : 0 < base) (width number : ℕ) :
    ∀ digit ∈ fixed base width number, digit < base := by
  induction width generalizing number with
  | zero => simp [fixed]
  | succ width induction =>
      intro digit member
      rcases List.mem_append.mp member with member | member
      · exact induction (number / base) digit member
      · rw [List.mem_singleton.mp member]
        exact Nat.mod_lt number positive

theorem value_fixed (base width number : ℕ) :
    value base (fixed base width number) = number % base ^ width := by
  induction width generalizing number with
  | zero => simp [fixed, Nat.mod_one]
  | succ width induction =>
      rw [fixed, value_concat, induction, Nat.pow_succ, Nat.mul_comm (base ^ width) base,
        Nat.mod_mul]
      omega

/-- A spelling is the fixed-width spelling of its own value. -/
theorem fixed_value {base : ℕ} (one_lt : 1 < base) (digits : List ℕ)
    (bounded : ∀ digit ∈ digits, digit < base) :
    fixed base digits.length (value base digits) = digits := by
  apply value_injective one_lt (by simp) (fixed_lt (by omega) _ _) bounded
  rw [value_fixed, Nat.mod_eq_of_lt (value_lt one_lt bounded)]

/-! ## Regrouping -/

/-- Spell every digit of radix `base ^ width` in radix `base`. -/
def respell (base width : ℕ) (symbols : List ℕ) : List ℕ :=
  symbols.flatMap (fixed base width)

@[simp] theorem respell_length (base width : ℕ) (symbols : List ℕ) :
    (respell base width symbols).length = width * symbols.length := by
  induction symbols with
  | nil => rfl
  | cons symbol symbols induction =>
      rw [respell, List.flatMap_cons, List.length_append, fixed_length, ← respell, induction,
        List.length_cons, Nat.mul_succ, Nat.add_comm]

theorem respell_lt {base : ℕ} (positive : 0 < base) (width : ℕ) (symbols : List ℕ) :
    ∀ digit ∈ respell base width symbols, digit < base := by
  intro digit member
  obtain ⟨symbol, _, inside⟩ := List.mem_flatMap.mp member
  exact fixed_lt positive width symbol digit inside

/-- Regrouping the digits keeps the number. -/
theorem value_respell {base width : ℕ} {symbols : List ℕ}
    (bounded : ∀ symbol ∈ symbols, symbol < base ^ width) :
    value base (respell base width symbols) = value (base ^ width) symbols := by
  induction symbols using List.reverseRecOn with
  | nil => rfl
  | append_singleton symbols symbol induction =>
      have front := induction fun earlier member =>
        bounded earlier (List.mem_append_left [symbol] member)
      have last : symbol < base ^ width := bounded symbol (by simp)
      rw [respell, List.flatMap_append, List.flatMap_singleton, value_append, fixed_length,
        value_fixed, Nat.mod_eq_of_lt last, ← respell, front, value_concat, Nat.mul_comm]

/-- The leading digits of a spelling are what a division by a power of the radix leaves. -/
theorem value_take {base : ℕ} (one_lt : 1 < base) {digits : List ℕ}
    (bounded : ∀ digit ∈ digits, digit < base) (count : ℕ) :
    value base (digits.take count) = value base digits / base ^ (digits.length - count) := by
  have rest : value base (digits.drop count) < base ^ (digits.length - count) := by
    rw [← List.length_drop]
    exact value_lt one_lt fun digit member => bounded digit (List.mem_of_mem_drop member)
  conv_rhs => rw [← List.take_append_drop count digits]
  rw [value_append, List.length_drop, List.take_append_drop, Nat.mul_comm,
    Nat.mul_add_div (Nat.pow_pos (Nat.zero_lt_of_lt one_lt)), Nat.div_eq_of_lt rest, Nat.add_zero]

/-! ## Multiply and add in place -/

/-- One pass over a digit array from its last entry to its first: every entry is multiplied by
`factor`, the incoming carry is added, the low digit stays and the rest is carried on. -/
def mulAdd (base factor : ℕ) : List ℕ → ℕ → List ℕ × ℕ
  | [], carry => ([], carry)
  | digit :: digits, carry =>
      let (rest, carried) := mulAdd base factor digits carry
      ((carried + factor * digit) % base :: rest, (carried + factor * digit) / base)

@[simp] theorem mulAdd_length (base factor : ℕ) (digits : List ℕ) (carry : ℕ) :
    (mulAdd base factor digits carry).1.length = digits.length := by
  induction digits with
  | nil => rfl
  | cons digit digits induction => simp [mulAdd, induction]

theorem mulAdd_lt {base : ℕ} (positive : 0 < base) (factor : ℕ) (digits : List ℕ) (carry : ℕ) :
    ∀ digit ∈ (mulAdd base factor digits carry).1, digit < base := by
  induction digits with
  | nil => simp [mulAdd]
  | cons digit digits induction =>
      intro entry member
      rcases List.mem_cons.mp member with rfl | member
      · exact Nat.mod_lt _ positive
      · exact induction entry member

/-- The array and the outgoing carry together hold `factor * value + carry`. -/
theorem mulAdd_value (base factor : ℕ) (digits : List ℕ) (carry : ℕ) :
    (mulAdd base factor digits carry).2 * base ^ digits.length +
        value base (mulAdd base factor digits carry).1 =
      factor * value base digits + carry := by
  induction digits with
  | nil => simp [mulAdd]
  | cons digit digits induction =>
      simp only [mulAdd, value_cons, List.length_cons, mulAdd_length]
      set carried := (mulAdd base factor digits carry).2
      set rest := (mulAdd base factor digits carry).1
      set total := carried + factor * digit
      have split : base * (total / base) + total % base = total := Nat.div_add_mod total base
      calc
        total / base * base ^ (digits.length + 1) +
              (total % base * base ^ digits.length + value base rest) =
            (base * (total / base) + total % base) * base ^ digits.length + value base rest := by
          ring
        _ = total * base ^ digits.length + value base rest := by rw [split]
        _ = factor * (digit * base ^ digits.length) +
              (carried * base ^ digits.length + value base rest) := by
          ring
        _ = factor * (digit * base ^ digits.length + value base digits) + carry := by
          rw [induction]
          ring

/-- Nothing is carried out of an array wide enough for the result. -/
theorem mulAdd_value_of_lt {base factor : ℕ} (digits : List ℕ) (carry : ℕ)
    (fits : factor * value base digits + carry < base ^ digits.length) :
    value base (mulAdd base factor digits carry).1 = factor * value base digits + carry ∧
      (mulAdd base factor digits carry).2 = 0 := by
  have total := mulAdd_value base factor digits carry
  have none_out : (mulAdd base factor digits carry).2 = 0 := by
    by_contra carried
    have : 1 * base ^ digits.length ≤
        (mulAdd base factor digits carry).2 * base ^ digits.length :=
      Nat.mul_le_mul_right _ (Nat.one_le_iff_ne_zero.mpr carried)
    omega
  refine ⟨?_, none_out⟩
  simpa [none_out] using total

/-! ## Radix conversion -/

/-- Convert a digit list of radix `factor` into an array of `width` digits of radix `base`. -/
def convert (base factor width : ℕ) (symbols : List ℕ) : List ℕ :=
  symbols.foldl (fun digits symbol => (mulAdd base factor digits symbol).1) (List.replicate width 0)

private theorem foldl_mulAdd {base factor : ℕ} (base_positive : 0 < base)
    (factor_positive : 0 < factor) (symbols digits : List ℕ)
    (bounded : ∀ digit ∈ digits, digit < base)
    (fits : value base digits * factor ^ symbols.length + value factor symbols <
      base ^ digits.length) :
    let result := symbols.foldl (fun digits symbol => (mulAdd base factor digits symbol).1) digits
    value base result = value base digits * factor ^ symbols.length + value factor symbols ∧
      ∀ digit ∈ result, digit < base := by
  induction symbols generalizing digits with
  | nil => simpa using bounded
  | cons symbol symbols induction =>
      set total := factor * value base digits + symbol with total_eq
      have regroup : value base digits * factor ^ (symbols.length + 1) +
          (symbol * factor ^ symbols.length + value factor symbols) =
            total * factor ^ symbols.length + value factor symbols := by
        rw [total_eq]
        ring
      rw [List.length_cons, value_cons, regroup] at fits
      have first_fits : total < base ^ digits.length := by
        have : total * 1 ≤ total * factor ^ symbols.length :=
          Nat.mul_le_mul_left _ (Nat.one_le_pow _ _ factor_positive)
        omega
      have first := (mulAdd_value_of_lt digits symbol first_fits).1
      have rest := induction (mulAdd base factor digits symbol).1
        (mulAdd_lt base_positive factor digits symbol)
        (by rw [first, mulAdd_length]; exact fits)
      rw [first] at rest
      rw [List.length_cons, value_cons, regroup]
      exact rest

/-- An array wide enough for the number holds it, in digits of the new radix. -/
theorem value_convert {base factor width : ℕ} (base_positive : 0 < base)
    (factor_positive : 0 < factor) (symbols : List ℕ)
    (fits : value factor symbols < base ^ width) :
    value base (convert base factor width symbols) = value factor symbols ∧
      ∀ digit ∈ convert base factor width symbols, digit < base := by
  have converted := foldl_mulAdd base_positive factor_positive symbols (List.replicate width 0)
    (by
      intro digit member
      rw [List.eq_of_mem_replicate member]
      exact base_positive)
    (by rwa [value_replicate_zero, Nat.zero_mul, Nat.zero_add, List.length_replicate])
  rwa [value_replicate_zero, Nat.zero_mul, Nat.zero_add] at converted

/-- Without its leading zeros, the converted array is the minimal spelling of the number. -/
theorem convert_dropWhile {base factor width : ℕ} (one_lt : 1 < base)
    (factor_positive : 0 < factor) (symbols : List ℕ)
    (fits : value factor symbols < base ^ width) :
    (convert base factor width symbols).dropWhile (· == 0) =
      minimal base (value factor symbols) := by
  have converted := value_convert (Nat.zero_lt_of_lt one_lt) factor_positive symbols fits
  rw [dropWhile_eq_minimal one_lt _ converted.2, converted.1]

theorem convert_length (base factor width : ℕ) (symbols : List ℕ) :
    (convert base factor width symbols).length = width := by
  rw [convert]
  induction symbols using List.reverseRecOn with
  | nil => simp
  | append_singleton symbols symbol ih => simp [List.foldl_append, ih]

/-- No pass of a conversion carries anything out of an array wide enough for the number. -/
theorem convert_carry {base factor width : ℕ} (base_positive : 0 < base)
    (factor_positive : 0 < factor) (front : List ℕ) (symbol : ℕ) (back : List ℕ)
    (fits : value factor (front ++ symbol :: back) < base ^ width) :
    (mulAdd base factor (convert base factor width front) symbol).2 = 0 := by
  have pass_fits : factor * value factor front + symbol < base ^ width := by
    rw [← value_concat]
    rw [← List.singleton_append, ← List.append_assoc, value_append] at fits
    have grown : value factor (front ++ [symbol]) * 1 ≤
        value factor (front ++ [symbol]) * factor ^ back.length :=
      Nat.mul_le_mul_left _ (Nat.one_le_pow _ _ factor_positive)
    omega
  have front_fits : value factor front < base ^ width := by
    have grown : 1 * value factor front ≤ factor * value factor front :=
      Nat.mul_le_mul_right _ factor_positive
    omega
  have held := (value_convert base_positive factor_positive front front_fits).1
  apply (mulAdd_value_of_lt (convert base factor width front) symbol _).2
  rw [held, convert_length]
  exact pass_fits

/-- A rational estimate of the digit ratio that is right for one block length is right for every
length, the floor included. -/
theorem pow_lt_pow_estimate {base factor block width : ℕ} (one_lt : 1 < base)
    (block_positive : 0 < block) (estimate : factor ^ block ≤ base ^ width) (length : ℕ) :
    factor ^ length < base ^ (length * width / block + 1) := by
  rw [← Nat.pow_lt_pow_iff_left block_positive.ne']
  calc
    (factor ^ length) ^ block = (factor ^ block) ^ length := by
      rw [← Nat.pow_mul, ← Nat.pow_mul, Nat.mul_comm]
    _ ≤ (base ^ width) ^ length := Nat.pow_le_pow_left estimate length
    _ = base ^ (length * width) := by rw [← Nat.pow_mul, Nat.mul_comm]
    _ < base ^ ((length * width / block + 1) * block) := by
      apply Nat.pow_lt_pow_right one_lt
      rw [Nat.mul_comm _ block]
      exact Nat.lt_mul_div_succ (length * width) block_positive
    _ = (base ^ (length * width / block + 1)) ^ block := Nat.pow_mul _ _ _

/-! ## Byte strings -/

/-- The number spelled by a big-endian byte string. -/
def bytesValue (bytes : List UInt8) : ℕ :=
  value 256 (bytes.map UInt8.toNat)

/-- The big-endian byte string of `width` bytes. -/
def fixedBytes (width number : ℕ) : List UInt8 :=
  (fixed 256 width number).map UInt8.ofNat

theorem toNat_lt (bytes : List UInt8) : ∀ digit ∈ bytes.map UInt8.toNat, digit < 256 := by
  intro digit member
  obtain ⟨byte, _, rfl⟩ := List.mem_map.mp member
  exact byte.toNat_lt

theorem map_toNat_map_ofNat {digits : List ℕ} (bounded : ∀ digit ∈ digits, digit < 256) :
    (digits.map UInt8.ofNat).map UInt8.toNat = digits := by
  rw [List.map_map]
  conv_rhs => rw [← List.map_id digits]
  apply List.map_congr_left
  intro digit member
  exact UInt8.toNat_ofNat_of_lt (by simpa [UInt8.size] using bounded digit member)

theorem map_ofNat_map_toNat (bytes : List UInt8) :
    (bytes.map UInt8.toNat).map UInt8.ofNat = bytes := by
  simp [Function.comp_def]

@[simp] theorem bytesValue_nil : bytesValue [] = 0 := rfl

theorem bytesValue_append (left right : List UInt8) :
    bytesValue (left ++ right) = bytesValue left * 256 ^ right.length + bytesValue right := by
  simpa [bytesValue] using value_append 256 (left.map UInt8.toNat) (right.map UInt8.toNat)

theorem bytesValue_cons (byte : UInt8) (bytes : List UInt8) :
    bytesValue (byte :: bytes) = byte.toNat * 256 ^ bytes.length + bytesValue bytes := by
  simpa [bytesValue] using value_cons 256 byte.toNat (bytes.map UInt8.toNat)

theorem bytesValue_replicate_zero (count : ℕ) : bytesValue (List.replicate count 0) = 0 := by
  rw [bytesValue, List.map_replicate]
  exact value_replicate_zero 256 count

theorem bytesValue_lt (bytes : List UInt8) : bytesValue bytes < 256 ^ bytes.length := by
  simpa [bytesValue] using value_lt (by norm_num) (toNat_lt bytes)

@[simp] theorem fixedBytes_length (width number : ℕ) : (fixedBytes width number).length = width := by
  simp [fixedBytes]

theorem bytesValue_fixedBytes (width number : ℕ) :
    bytesValue (fixedBytes width number) = number % 256 ^ width := by
  rw [bytesValue, fixedBytes, map_toNat_map_ofNat (fixed_lt (by norm_num) _ _), value_fixed]

theorem fixedBytes_bytesValue (bytes : List UInt8) :
    fixedBytes bytes.length (bytesValue bytes) = bytes := by
  have spelled := fixed_value (by norm_num) (bytes.map UInt8.toNat) (toNat_lt bytes)
  rw [List.length_map] at spelled
  rw [fixedBytes, bytesValue, spelled, map_ofNat_map_toNat]

end Positional
