import Mathlib.Data.List.Find
import Mathlib.Data.List.Infix
import Mathlib.Data.Nat.Bitwise
import Mathlib.Tactic.Common

/-!
# Searching words, blocks of positions and tables

Independent pieces of search: the suffix that starts at the first occurrence of a word, the search
of all positions in blocks of a fixed stride, the enumeration of the set bits of a lane mask, which
may be a signed word, and the lookup in a table that was filled entry by entry.  The first three are
related to the plain least-position search.
-/

namespace Search

/-! ## The first occurrence of a word -/

/-- The suffix of a text that starts at the first occurrence of `word`. -/
def suffixFrom {α : Type*} [DecidableEq α] (word : List α) : List α → Option (List α)
  | [] => if word = [] then some [] else none
  | head :: tail =>
      if word.isPrefixOf (head :: tail) then some (head :: tail) else suffixFrom word tail

/-- No proper suffix of the word starts the word again. -/
def Borderless {α : Type*} (word : List α) : Prop :=
  ∀ shift, 0 < shift → shift < word.length → ¬ word.drop shift <+: word

instance {α : Type*} [DecidableEq α] (word : List α) : Decidable (Borderless word) :=
  decidable_of_iff (∀ shift < word.length, 0 < shift → ¬ word.drop shift <+: word)
    ⟨fun forward shift positive bounded => forward shift bounded positive,
      fun borderless shift bounded positive => borderless shift positive bounded⟩

private theorem not_isPrefix_of_absent {α : Type*} {word front back : List α}
    (borderless : Borderless word) (front_ne : front ≠ []) (absent : ¬ word <:+: front) :
    ¬ word <+: front ++ (word ++ back) := by
  intro starts
  rcases Nat.lt_or_ge front.length word.length with longer | shorter
  · have front_starts : front <+: word :=
      List.prefix_of_prefix_length_le (List.prefix_append front _) starts longer.le
    obtain ⟨rest, rfl⟩ := front_starts
    have rest_starts : rest <+: (front ++ rest) ++ back :=
      (List.prefix_append_right_inj front).mp starts
    have border : rest <+: front ++ rest :=
      List.prefix_of_prefix_length_le rest_starts (List.prefix_append _ back) (by simp)
    have positive : 0 < front.length := List.length_pos_of_ne_nil front_ne
    exact borderless front.length positive longer (by simpa using border)
  · have inside : word <+: front :=
      List.prefix_of_prefix_length_le starts (List.prefix_append front _) shorter
    exact absent inside.isInfix

/-- A borderless word is first found where it was appended to a text without it. -/
theorem suffixFrom_append {α : Type*} [DecidableEq α] {word : List α}
    (borderless : Borderless word) (front back : List α) (absent : ¬ word <:+: front) :
    suffixFrom word (front ++ (word ++ back)) = some (word ++ back) := by
  induction front with
  | nil =>
      have word_ne : word ≠ [] := by
        rintro rfl
        exact absent (List.nil_infix)
      obtain ⟨head, tail, rfl⟩ := List.exists_cons_of_ne_nil word_ne
      simp [suffixFrom, List.isPrefixOf_iff_prefix]
  | cons head front induction =>
      have later : ¬ word <:+: front := fun found =>
        absent (found.trans (List.suffix_cons head front).isInfix)
      have here : ¬ word <+: head :: front ++ (word ++ back) :=
        not_isPrefix_of_absent borderless (List.cons_ne_nil head front) absent
      rw [List.cons_append] at here ⊢
      rw [suffixFrom, if_neg (by simpa [List.isPrefixOf_iff_prefix] using here)]
      exact induction later

/-! ## Strided search -/

/-- The first result of `body` at the positions `0, stride, 2 * stride, …` up to `bound`, unless
`body` fails before. -/
def strided {ε : Type} (stride bound : ℕ) (body : ℕ → Except ε (Option ℕ)) :
    Except ε (Option ℕ) :=
  ((List.range (bound / stride + 1)).map (stride * ·)).findSomeM? body

/-- The positions of the blocks that a strided search visits. -/
def blockPositions (stride bound : ℕ) : List ℕ :=
  List.range (stride * (bound / stride + 1))

/-- A position is visited exactly when its block starts within the bound. -/
theorem mem_blockPositions {stride bound position : ℕ} (positive : 0 < stride) :
    position ∈ blockPositions stride bound ↔ stride * (position / stride) ≤ bound := by
  rw [blockPositions, List.mem_range, Nat.mul_comm stride (bound / stride + 1),
    ← Nat.div_lt_iff_lt_mul positive, Nat.lt_succ_iff, Nat.le_div_iff_mul_le positive,
    Nat.mul_comm stride]

private theorem find?_range_blocks (stride count : ℕ) (found : ℕ → Bool) :
    (List.range (stride * count)).find? found =
      (List.range count).findSome? fun block =>
        ((List.range stride).map (stride * block + ·)).find? found := by
  induction count with
  | zero => simp
  | succ count induction =>
      rw [Nat.mul_succ, List.range_add, List.find?_append, induction, List.range_succ,
        List.findSome?_append, List.findSome?_singleton]

private theorem findSomeM?_eq {ε β : Type} {body : β → Except ε (Option ℕ)}
    {found : β → Option ℕ} {outcome : ℕ → Except ε ℕ} {entries : List β}
    (agree : ∀ entry ∈ entries, body entry = (found entry).mapM outcome) :
    entries.findSomeM? body = (entries.findSome? found).mapM outcome := by
  induction entries with
  | nil => rfl
  | cons entry entries induction =>
      rw [List.findSomeM?_cons, List.findSome?_cons, agree entry List.mem_cons_self,
        induction fun later member => agree later (List.mem_cons_of_mem entry member)]
      cases found entry with
      | none => rfl
      | some position =>
          rw [Option.mapM_some]
          cases outcome position <;> rfl

/-- A strided search ends at the least position of its blocks that stops one of them. -/
theorem strided_eq_find? {ε : Type} {stride bound : ℕ} {body : ℕ → Except ε (Option ℕ)}
    {stops : ℕ → Bool} {outcome : ℕ → Except ε ℕ}
    (block : ∀ start ≤ bound, stride ∣ start →
      body start = (((List.range stride).map (start + ·)).find? stops).mapM outcome) :
    strided stride bound body = ((blockPositions stride bound).find? stops).mapM outcome := by
  have blocks : ((List.range (bound / stride + 1)).map (stride * ·)).findSomeM? body =
      (((List.range (bound / stride + 1)).map (stride * ·)).findSome? fun start =>
        ((List.range stride).map (start + ·)).find? stops).mapM outcome := by
    apply findSomeM?_eq
    intro start member
    obtain ⟨index, index_mem, rfl⟩ := List.mem_map.mp member
    have index_le : index ≤ bound / stride := Nat.lt_succ_iff.mp (List.mem_range.mp index_mem)
    have start_le : stride * index ≤ bound :=
      (Nat.mul_le_mul_left stride index_le).trans (Nat.mul_div_le bound stride)
    exact block (stride * index) start_le (Nat.dvd_mul_right stride index)
  rw [strided, blocks, List.findSome?_map, blockPositions, find?_range_blocks]
  rfl

/-! ## Lane masks -/

/-- The bit mask of a list of lanes, lane `0` in the lowest bit. -/
def movemask : List Bool → ℕ
  | [] => 0
  | lane :: lanes => lane.toNat + 2 * movemask lanes

/-- The position of the lowest set bit of a non-zero mask. -/
def countTrailingZeros (mask : ℕ) : ℕ :=
  if mask = 0 then 0
  else if mask % 2 = 1 then 0
  else countTrailingZeros (mask / 2) + 1

/-- Visit the set bits of a mask from the lowest up, clearing each, until one passes the check. -/
def scanMask (check : ℕ → Bool) (mask : ℕ) : Option ℕ :=
  if mask = 0 then none
  else if check (countTrailingZeros mask) then some (countTrailingZeros mask)
  else scanMask check (mask &&& (mask - 1))
termination_by mask
decreasing_by
  have : mask &&& (mask - 1) ≤ mask - 1 := Nat.and_le_right
  omega

private theorem toNat_sub_one {width : ℕ} {mask : BitVec width} (mask_ne : mask.toNat ≠ 0) :
    (mask - 1).toNat = mask.toNat - 1 := by
  have bounded := mask.isLt
  have width_ne : width ≠ 0 := by
    rintro rfl
    omega
  have one : (1 : BitVec width).toNat = 1 := BitVec.toNat_one (by omega)
  rw [BitVec.toNat_sub, one, show 2 ^ width - 1 + mask.toNat = mask.toNat - 1 + 2 ^ width by omega,
    Nat.add_mod_right, Nat.mod_eq_of_lt (by omega)]

/-- `scanMask` on a signed word.  Clearing the lowest bit subtracts one, which overflows when only
the sign bit is left, and it comes before the check. -/
def scanSigned {ε : Type} {width : ℕ} (overflow : ε) (check : ℕ → Bool) (mask : BitVec width) :
    Except ε (Option ℕ) :=
  if mask.toNat = 0 then .ok none
  else if mask.ssubOverflow 1 then .error overflow
  else if check (countTrailingZeros mask.toNat) then .ok (some (countTrailingZeros mask.toNat))
  else scanSigned overflow check (mask &&& (mask - 1))
termination_by mask.toNat
decreasing_by
  rw [BitVec.toNat_and]
  have occupied : mask.toNat ≠ 0 := by assumption
  have := toNat_sub_one occupied
  have : mask.toNat &&& (mask - 1).toNat ≤ (mask - 1).toNat := Nat.and_le_right
  omega

private theorem testBit_double_succ (half position : ℕ) :
    (2 * half).testBit (position + 1) = half.testBit position := by
  rw [Nat.testBit_succ, Nat.mul_div_cancel_left half (by omega)]

private theorem testBit_double_add_one_succ (half position : ℕ) :
    (2 * half + 1).testBit (position + 1) = half.testBit position := by
  rw [Nat.testBit_succ, show (2 * half + 1) / 2 = half by omega]

private theorem clearLowest_even {half : ℕ} (positive : 0 < half) :
    (2 * half) &&& (2 * half - 1) = 2 * (half &&& (half - 1)) := by
  have predecessor : 2 * half - 1 = 2 * (half - 1) + 1 := by omega
  rw [predecessor]
  apply Nat.eq_of_testBit_eq
  intro position
  cases position with
  | zero => simp
  | succ position =>
      simp only [Nat.testBit_and, testBit_double_succ, testBit_double_add_one_succ]

private theorem clearLowest_odd (half : ℕ) :
    (2 * half + 1) &&& (2 * half + 1 - 1) = 2 * half := by
  apply Nat.eq_of_testBit_eq
  intro position
  cases position with
  | zero => simp
  | succ position =>
      simp only [Nat.testBit_and, Nat.add_sub_cancel, testBit_double_succ,
        testBit_double_add_one_succ, Bool.and_self]

private theorem countTrailingZeros_even {half : ℕ} (positive : 0 < half) :
    countTrailingZeros (2 * half) = countTrailingZeros half + 1 := by
  rw [countTrailingZeros, if_neg (by omega), if_neg (by omega),
    Nat.mul_div_cancel_left half (by omega)]

private theorem scanMask_even (check : ℕ → Bool) (half : ℕ) :
    scanMask check (2 * half) = (scanMask (fun bit => check (bit + 1)) half).map (· + 1) := by
  induction half using Nat.strong_induction_on with
  | _ half induction =>
      rcases Nat.eq_zero_or_pos half with rfl | positive
      · simp [scanMask]
      · have smaller : half &&& (half - 1) < half := by
          have : half &&& (half - 1) ≤ half - 1 := Nat.and_le_right
          omega
        have rest := induction _ smaller
        rw [scanMask, if_neg (by omega), countTrailingZeros_even positive,
          clearLowest_even positive, rest]
        conv_rhs => rw [scanMask, if_neg (by omega)]
        split <;> rfl

private theorem scanMask_odd (check : ℕ → Bool) (half : ℕ) :
    scanMask check (2 * half + 1) =
      if check 0 then some 0
      else (scanMask (fun bit => check (bit + 1)) half).map (· + 1) := by
  have lowest : countTrailingZeros (2 * half + 1) = 0 := by
    rw [countTrailingZeros, if_neg (by omega), if_pos (by omega)]
  rw [scanMask, if_neg (by omega), lowest, clearLowest_odd, scanMask_even]

/-- Scanning the mask of a list of lanes finds the least set lane that passes the check. -/
theorem scanMask_movemask (check : ℕ → Bool) (lanes : List Bool) :
    scanMask check (movemask lanes) =
      (List.range lanes.length).find? fun lane => lanes.getD lane false && check lane := by
  induction lanes generalizing check with
  | nil => simp [movemask, scanMask]
  | cons lane lanes induction =>
      rw [List.length_cons, List.range_succ_eq_map, List.find?_cons, List.find?_map]
      cases lane with
      | false =>
          simp only [movemask, Bool.toNat_false, Nat.zero_add, scanMask_even]
          rw [induction]
          simp
      | true =>
          rw [movemask, Bool.toNat_true, Nat.add_comm, scanMask_odd, induction]
          cases check 0 <;> simp

private theorem two_pow_countTrailingZeros_dvd (mask : ℕ) : 2 ^ countTrailingZeros mask ∣ mask := by
  induction mask using Nat.strong_induction_on with
  | _ mask induction =>
      rw [countTrailingZeros]
      split
      · simp_all
      · split
        · simp
        · obtain ⟨half, rfl⟩ : ∃ half, mask = 2 * half := ⟨mask / 2, by omega⟩
          rw [Nat.mul_div_cancel_left half (by omega), Nat.pow_succ, Nat.mul_comm]
          exact Nat.mul_dvd_mul_left 2 (induction half (by omega))

private theorem countTrailingZeros_two_pow (exponent : ℕ) :
    countTrailingZeros (2 ^ exponent) = exponent := by
  induction exponent with
  | zero => rw [countTrailingZeros, if_neg (by simp), if_pos (by simp)]
  | succ exponent induction =>
      rw [Nat.pow_succ, Nat.mul_comm, countTrailingZeros_even (Nat.two_pow_pos exponent), induction]

/-- The sign bit is the lowest set bit of a word only when it is the only one. -/
private theorem countTrailingZeros_eq_iff {width mask : ℕ} (positive : 0 < mask)
    (bounded : mask < 2 ^ (width + 1)) : countTrailingZeros mask = width ↔ mask = 2 ^ width := by
  constructor
  · intro lowest
    obtain ⟨factor, rfl⟩ : 2 ^ width ∣ mask := lowest ▸ two_pow_countTrailingZeros_dvd mask
    rw [Nat.pow_succ, Nat.mul_lt_mul_left (Nat.two_pow_pos width)] at bounded
    obtain rfl : factor = 1 := by
      have := Nat.pos_of_mul_pos_left positive
      omega
    rw [Nat.mul_one]
  · rintro rfl
    exact countTrailingZeros_two_pow width

private theorem ssubOverflow_one_iff {width : ℕ} (wide : 0 < width) (mask : BitVec (width + 1)) :
    mask.ssubOverflow 1 = true ↔ mask.toNat = 2 ^ width := by
  have one : (1 : BitVec (width + 1)).toInt = 1 := BitVec.toInt_one (by omega)
  have signed := BitVec.toInt_eq_toNat_cond mask
  have power : 2 ^ (width + 1) = 2 * 2 ^ width := by rw [Nat.pow_succ, Nat.mul_comm]
  have cast : ((2 ^ width : ℕ) : ℤ) = 2 ^ width := by push_cast; rfl
  have bounded := mask.isLt
  rw [BitVec.ssubOverflow, one, Nat.add_sub_cancel, ← cast, Bool.or_eq_true, decide_eq_true_eq,
    decide_eq_true_eq]
  rw [power] at bounded signed
  split at signed <;> omega

/-- Scanning a signed mask ends at the least set lane that passes the check, or at the lane of the
sign bit, where the subtraction overflows. -/
theorem scanSigned_eq {ε : Type} {width : ℕ} (wide : 0 < width) (overflow : ε) (check : ℕ → Bool)
    (mask : BitVec (width + 1)) :
    scanSigned overflow check mask =
      (scanMask (fun bit => check bit || bit == width) mask.toNat).mapM fun bit =>
        if bit = width then .error overflow else .ok bit := by
  have lowest_ne : ∀ mask : BitVec (width + 1), mask.toNat ≠ 0 → ¬ mask.ssubOverflow 1 = true →
      countTrailingZeros mask.toNat ≠ width := by
    intro mask occupied defined lowest
    exact defined ((ssubOverflow_one_iff wide mask).mpr
      ((countTrailingZeros_eq_iff (by omega) mask.isLt).mp lowest))
  induction mask using scanSigned.induct check with
  | case1 mask empty => rw [scanSigned, if_pos empty, scanMask, if_pos empty]; rfl
  | case2 mask occupied overflows =>
      have lowest : countTrailingZeros mask.toNat = width :=
        (countTrailingZeros_eq_iff (by omega) mask.isLt).mpr
          ((ssubOverflow_one_iff wide mask).mp overflows)
      rw [scanSigned, if_neg occupied, if_pos overflows, scanMask, if_neg occupied, lowest]
      simp
  | case3 mask occupied defined passes =>
      have below := lowest_ne mask occupied defined
      rw [scanSigned, if_neg occupied, if_neg defined, if_pos passes, scanMask, if_neg occupied,
        passes, Bool.true_or, if_pos rfl, Option.mapM_some, if_neg below]
      rfl
  | case4 mask occupied defined fails induction =>
      have below := lowest_ne mask occupied defined
      have continues : (check (countTrailingZeros mask.toNat) ||
          countTrailingZeros mask.toNat == width) ≠ true := by
        simp [fails, below]
      rw [scanSigned, if_neg occupied, if_neg defined, if_neg fails, induction, BitVec.toNat_and,
        toNat_sub_one occupied]
      conv_rhs => rw [scanMask, if_neg occupied, if_neg continues]

theorem movemask_lt (lanes : List Bool) : movemask lanes < 2 ^ lanes.length := by
  induction lanes with
  | nil => simp [movemask]
  | cons lane lanes induction =>
      have := Bool.toNat_le lane
      rw [movemask, List.length_cons, Nat.pow_succ]
      omega

/-- Scanning the signed mask of a list of lanes. -/
theorem scanSigned_movemask {ε : Type} {width : ℕ} (wide : 0 < width) (overflow : ε)
    (check : ℕ → Bool) {lanes : List Bool} (fits : lanes.length ≤ width + 1) :
    scanSigned overflow check (BitVec.ofNat (width + 1) (movemask lanes)) =
      ((List.range lanes.length).find? fun lane =>
        lanes.getD lane false && (check lane || lane == width)).mapM fun lane =>
          if lane = width then .error overflow else .ok lane := by
  have pattern : (BitVec.ofNat (width + 1) (movemask lanes)).toNat = movemask lanes := by
    rw [BitVec.toNat_ofNat]
    exact Nat.mod_eq_of_lt ((movemask_lt lanes).trans_le (Nat.pow_le_pow_right (by omega) fits))
  rw [scanSigned_eq wide, pattern, scanMask_movemask]

/-- Only full lanes give the all-ones mask. -/
theorem movemask_eq_ones_iff (lanes : List Bool) :
    movemask lanes = 2 ^ lanes.length - 1 ↔ ∀ lane ∈ lanes, lane = true := by
  induction lanes with
  | nil => simp [movemask]
  | cons lane lanes induction =>
      have bounded := movemask_lt lanes
      have positive : 0 < 2 ^ lanes.length := Nat.two_pow_pos _
      rw [movemask, List.length_cons, Nat.pow_succ, List.forall_mem_cons, ← induction]
      cases lane with
      | false =>
          simp only [Bool.toNat_false, Bool.false_eq_true, false_and, iff_false]
          omega
      | true =>
          simp only [Bool.toNat_true, true_and]
          omega

/-! ## Tables -/

/-- A lookup table that holds `default` everywhere and is then filled entry by entry. -/
def fillTable {α β : Type*} [DecidableEq α] (default : β) (entries : List (α × β)) : α → β :=
  entries.foldl (fun table entry => Function.update table entry.1 entry.2) fun _ => default

private theorem foldl_update_eq {α β : Type*} [DecidableEq α] (entries : List (α × β))
    (table : α → β) (key : α) :
    entries.foldl (fun table entry => Function.update table entry.1 entry.2) table key = table key ∨
      ∃ entry ∈ entries, entry.1 = key ∧
        entries.foldl (fun table entry => Function.update table entry.1 entry.2) table key =
          entry.2 := by
  induction entries generalizing table with
  | nil => exact .inl rfl
  | cons entry entries induction =>
      rw [List.foldl_cons]
      rcases induction (Function.update table entry.1 entry.2) with untouched | later
      · by_cases here : key = entry.1
        · right
          refine ⟨entry, List.mem_cons_self, here.symm, ?_⟩
          rw [untouched, here, Function.update_self]
        · left
          rw [untouched, Function.update_of_ne here]
      · obtain ⟨found, member, key_eq, stored⟩ := later
        exact .inr ⟨found, List.mem_cons_of_mem entry member, key_eq, stored⟩

/-- A filled table holds the default or the value of an entry with the looked-up key. -/
theorem fillTable_eq {α β : Type*} [DecidableEq α] (default : β) (entries : List (α × β))
    (key : α) :
    fillTable default entries key = default ∨
      ∃ entry ∈ entries, entry.1 = key ∧ fillTable default entries key = entry.2 :=
  foldl_update_eq entries (fun _ => default) key

end Search
