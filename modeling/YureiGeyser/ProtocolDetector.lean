import Mathlib.Data.List.Infix
import YureiGeyser.Event
import YureiGeyser.Library.Search

/-!
# Protocol detection

`fastMemmem` has the three bodies that the preprocessor chooses between.  The vector bodies compare
a block of the haystack with the needle lane by lane, so the lane of a candidate position holds the
needle byte of that lane and not its first byte.  They therefore see only the occurrences at
positions whose lane repeats the first byte of the needle.  The AVX2 mask fills an `int`, and
clearing its last lane overflows, so a scan that comes down to that lane is a fault
(`fastMemmem_eq_find?`).
-/

namespace YureiGeyser

/-! ## The source -/

/-- `PROGRAM_ID_LEN`. -/
def programIdLen : ℕ := 32

/-- `memcmp(left, right, len) == 0`. -/
def memcmpEq (left right : List UInt8) (len : ℕ) : Bool :=
  left.take len == right.take len

/-- The instruction set that the binary was compiled for. -/
inductive SimdTarget
  | avx2
  | sse2
  | scalar
  deriving DecidableEq, Repr

/-- `pos + needle_len <= haystack_len && memcmp(haystack + pos, needle, needle_len) == 0`. -/
def candidate (haystack needle : List UInt8) (pos : ℕ) : Bool :=
  decide (pos + needle.length ≤ haystack.length) &&
    memcmpEq (haystack.drop pos) needle needle.length

/-- `_mm256_loadu_si256` and `_mm_loadu_si128`: the register of the first `width` bytes. -/
def loadLanes (width : ℕ) (bytes : List UInt8) : Except Fault (List UInt8) :=
  if width ≤ bytes.length then .ok (bytes.take width) else .error .outOfBounds

/-- `movemask_epi8(cmpeq_epi8(chunk, needle_vec))`, an `int`: with 32 lanes the last one is the sign
bit. -/
def cmpeqMask (chunk needleVec : List UInt8) : BitVec 32 :=
  BitVec.ofNat 32 (Search.movemask (List.zipWith (· == ·) chunk needleVec))

/-- The loop over the set bits of a mask at block start `i`.  `mask &= mask - 1` is undefined when
the mask is `INT_MIN`. -/
def scanBlock (haystack needle : List UInt8) (i : ℕ) (mask : BitVec 32) :
    Except Fault (Option ℕ) := do
  let bit ← Search.scanSigned .signedOverflow (fun bit => candidate haystack needle (i + bit)) mask
  return bit.map (i + ·)

/-- The loop body under `__AVX2__`. -/
def avx2Body (haystack needle needleVec : List UInt8) (i : ℕ) : Except Fault (Option ℕ) := do
  let chunk ← loadLanes 32 (haystack.drop i)
  let mask := cmpeqMask chunk needleVec
  if mask = -1 then
    return if memcmpEq (haystack.drop i) needle needle.length then some i else none
  else
    scanBlock haystack needle i mask

/-- The loop body under `__SSE2__`. -/
def sse2Body (haystack needle first : List UInt8) (i : ℕ) : Except Fault (Option ℕ) := do
  let chunk ← loadLanes 16 (haystack.drop i)
  scanBlock haystack needle i (cmpeqMask chunk first)

/-- The scalar loop body. -/
def scalarBody (haystack needle : List UInt8) (i : ℕ) : Except Fault (Option ℕ) :=
  return if memcmpEq (haystack.drop i) needle needle.length then some i else none

/-- `fast_memmem`, as the offset of the returned pointer. -/
def fastMemmem (target : SimdTarget) (haystack needle : List UInt8) :
    Except Fault (Option ℕ) :=
  if needle.length = 0 ∨ haystack.length < needle.length then
    return none
  else
    let bound := haystack.length - needle.length
    match target with
    | .avx2 => do
        let needleVec ← loadLanes 32 needle
        Search.strided 32 bound (avx2Body haystack needle needleVec)
    | .sse2 => do
        let first ← loadLanes 16 needle
        Search.strided 16 bound (sse2Body haystack needle first)
    | .scalar => Search.strided 1 bound (scalarBody haystack needle)

/-- `yurei_protocol_t`. -/
inductive Protocol
  | none
  | pumpfun
  | raydium
  deriving DecidableEq, Repr

/-- `yurei_protocol_pattern_t`. -/
structure ProtocolPattern where
  programId : Pubkey
  enabled : Bool

/-- `yurei_protocol_detector_t`. -/
structure ProtocolDetector where
  pumpfun : ProtocolPattern
  raydium : ProtocolPattern

/-- `protocol_detector_init`. -/
def protocolDetectorInit (pumpfunProgram : Pubkey) (pumpfunEnabled : Bool)
    (raydiumProgram : Pubkey) (raydiumEnabled : Bool) : ProtocolDetector where
  pumpfun :=
    if pumpfunEnabled then { programId := pumpfunProgram, enabled := true }
    else { programId := Pubkey.zero, enabled := false }
  raydium :=
    if raydiumEnabled then { programId := raydiumProgram, enabled := true }
    else { programId := Pubkey.zero, enabled := false }

/-- `protocol_detector_match_program`; `none` is a null pointer. -/
def protocolDetectorMatchProgram (target : SimdTarget) (pattern : ProtocolPattern)
    (data : Option (List UInt8)) : Except Fault Bool :=
  match data with
  | none => return false
  | some data =>
      if pattern.enabled then do
        let found ← fastMemmem target data pattern.programId.bytes
        return found.isSome
      else
        return false

/-- One comparison of `protocol_detector_match_accounts`. -/
def accountMatches (pattern : ProtocolPattern) (account : List UInt8) : Bool :=
  pattern.enabled && account.length == programIdLen &&
    memcmpEq account pattern.programId.bytes programIdLen

/-- `protocol_detector_match_accounts`; an account is a pointer, possibly null, and its bytes. -/
def protocolDetectorMatchAccounts (detector : ProtocolDetector) :
    List (Option (List UInt8)) → Protocol
  | [] => .none
  | none :: accounts => protocolDetectorMatchAccounts detector accounts
  | some account :: accounts =>
      if account.length = 0 then
        protocolDetectorMatchAccounts detector accounts
      else if accountMatches detector.pumpfun account then
        .pumpfun
      else if accountMatches detector.raydium account then
        .raydium
      else
        protocolDetectorMatchAccounts detector accounts

/-! ## Occurrences -/

theorem candidate_iff {haystack needle : List UInt8} (nonempty : needle ≠ []) {pos : ℕ} :
    candidate haystack needle pos = true ↔ needle <+: haystack.drop pos := by
  rw [candidate, memcmpEq, List.take_length, Bool.and_eq_true, decide_eq_true_eq, beq_iff_eq]
  constructor
  · rintro ⟨-, same⟩
    exact List.prefix_iff_eq_take.mpr same.symm
  · intro starts
    refine ⟨?_, (List.prefix_iff_eq_take.mp starts).symm⟩
    have positive := List.length_pos_of_ne_nil nonempty
    have length_le := starts.length_le
    rw [List.length_drop] at length_le
    omega

/-- An occurrence starts with the first byte of the needle. -/
theorem getElem?_of_candidate {haystack needle : List UInt8} {pos : ℕ} (nonempty : needle ≠ [])
    (occurs : candidate haystack needle pos = true) : haystack[pos]? = needle[0]? := by
  obtain ⟨rest, text⟩ := (candidate_iff nonempty).mp occurs
  have head := congrArg (fun entries : List UInt8 => entries[0]?) text
  have positive := List.length_pos_of_ne_nil nonempty
  rw [List.getElem?_append_left positive, List.getElem?_drop] at head
  exact head.symm

/-! ## Where a search stops -/

/-- The block width of a target. -/
def SimdTarget.lanes : SimdTarget → ℕ
  | .avx2 => 32
  | .sse2 => 16
  | .scalar => 1

theorem SimdTarget.lanes_pos (target : SimdTarget) : 0 < target.lanes := by
  cases target <;> decide

/-- Whether a body with blocks of `lanes` bytes ends the search at a position: the byte there is the
needle byte of its lane, and it starts an occurrence or its lane is the sign bit of the mask. -/
def stops (lanes : ℕ) (haystack needle : List UInt8) (pos : ℕ) : Bool :=
  haystack[pos]? == needle[pos % lanes]? &&
    (candidate haystack needle pos || pos % lanes == 31)

/-- How the search ends at such a position. -/
def stopOutcome (lanes pos : ℕ) : Except Fault ℕ :=
  if pos % lanes = 31 then .error .signedOverflow else .ok pos

private theorem loadLanes_ok {width : ℕ} {bytes : List UInt8} (inside : width ≤ bytes.length) :
    loadLanes width bytes = .ok (bytes.take width) :=
  if_pos inside

private theorem mod_of_aligned {lanes start lane : ℕ} (aligned : lanes ∣ start)
    (lane_lt : lane < lanes) : (start + lane) % lanes = lane := by
  obtain ⟨block, rfl⟩ := aligned
  rw [Nat.mul_add_mod, Nat.mod_eq_of_lt lane_lt]

/-- A set lane that passes the check, or whose subtraction overflows. -/
private theorem lane_stops {haystack needle : List UInt8} {lanes start lane : ℕ}
    (lane_lt : lane < lanes) (wide : lanes ≤ needle.length)
    (inside : start + needle.length ≤ haystack.length) (aligned : lanes ∣ start) :
    ((List.zipWith (· == ·) ((haystack.drop start).take lanes) (needle.take lanes)).getD lane
        false && (candidate haystack needle (start + lane) || lane == 31)) =
      stops lanes haystack needle (start + lane) := by
  have text_byte : haystack[start + lane]? = some haystack[start + lane] :=
    List.getElem?_eq_getElem (by omega)
  have needle_byte : needle[lane]? = some needle[lane] := List.getElem?_eq_getElem (by omega)
  rw [stops, mod_of_aligned aligned lane_lt, List.getD_eq_getElem?_getD, List.getElem?_zipWith,
    List.getElem?_take_of_lt lane_lt, List.getElem?_take_of_lt lane_lt, List.getElem?_drop,
    text_byte, needle_byte]
  rfl

private theorem scanBlock_eq {haystack needle : List UInt8} {lanes start : ℕ}
    (narrow : lanes ≤ 32) (wide : lanes ≤ needle.length)
    (inside : start + needle.length ≤ haystack.length) (aligned : lanes ∣ start) :
    scanBlock haystack needle start
        (cmpeqMask ((haystack.drop start).take lanes) (needle.take lanes)) =
      (((List.range lanes).map (start + ·)).find? (stops lanes haystack needle)).mapM
        (stopOutcome lanes) := by
  have lane_count : (List.zipWith (· == ·) ((haystack.drop start).take lanes)
      (needle.take lanes)).length = lanes := by
    rw [List.length_zipWith, List.length_take, List.length_take, List.length_drop]
    omega
  have same_stops : (List.range lanes).find? (fun lane =>
        (List.zipWith (· == ·) ((haystack.drop start).take lanes) (needle.take lanes)).getD lane
          false && (candidate haystack needle (start + lane) || lane == 31)) =
      (List.range lanes).find? (stops lanes haystack needle ∘ (start + ·)) :=
    List.find?_congr fun lane member =>
      lane_stops (List.mem_range.mp member) wide inside aligned
  rw [scanBlock, cmpeqMask, Search.scanSigned_movemask (by omega) _ _ (by omega), lane_count,
    same_stops, List.find?_map]
  cases found : (List.range lanes).find? (stops lanes haystack needle ∘ (start + ·)) with
  | none => rfl
  | some lane =>
      have lane_lt := List.mem_range.mp (List.mem_of_find?_eq_some found)
      rw [Option.map_some, Option.mapM_some, Option.mapM_some, stopOutcome,
        mod_of_aligned aligned lane_lt]
      split <;> rfl

private theorem cmpeqMask_eq_neg_one {chunk needleVec : List UInt8}
    (chunk_length : chunk.length = 32) (needle_length : needleVec.length = 32)
    (full : cmpeqMask chunk needleVec = -1) : chunk = needleVec := by
  have lane_count : (List.zipWith (· == ·) chunk needleVec).length = 32 := by
    rw [List.length_zipWith, chunk_length, needle_length, Nat.min_self]
  have bounded := Search.movemask_lt (List.zipWith (· == ·) chunk needleVec)
  have pattern := congrArg BitVec.toNat full
  rw [cmpeqMask, BitVec.toNat_ofNat, Nat.mod_eq_of_lt (by rwa [lane_count] at bounded)] at pattern
  have all_equal := (Search.movemask_eq_ones_iff _).mp (by rw [lane_count]; exact pattern)
  apply List.ext_getElem (by rw [chunk_length, needle_length])
  intro lane lane_lt lane_lt'
  have lane_eq := all_equal _ (List.getElem_mem (n := lane) (by rw [lane_count]; omega))
  simpa using lane_eq

private theorem avx2Body_eq {haystack needle : List UInt8} {start : ℕ}
    (width : needle.length = 32) (inside : start + needle.length ≤ haystack.length)
    (aligned : 32 ∣ start) :
    avx2Body haystack needle (needle.take 32) start =
      (((List.range 32).map (start + ·)).find? (stops 32 haystack needle)).mapM
        (stopOutcome 32) := by
  have room : 32 ≤ (haystack.drop start).length := by
    rw [List.length_drop]
    omega
  rw [avx2Body, loadLanes_ok room]
  change (if _ then _ else _) = _
  split
  · rename_i full
    -- An all-ones mask is a match of the whole block, and the search stops at its first lane.
    have same : (haystack.drop start).take 32 = needle.take 32 :=
      cmpeqMask_eq_neg_one (by rw [List.length_take]; omega) (by rw [List.length_take]; omega) full
    have matches_start : memcmpEq (haystack.drop start) needle needle.length = true := by
      rw [memcmpEq, width, beq_iff_eq, same]
    have occurs : candidate haystack needle start = true := by
      rw [candidate, matches_start, Bool.and_true, decide_eq_true_eq]
      exact inside
    have first_lane : start % 32 = 0 := Nat.mod_eq_zero_of_dvd aligned
    have nonempty : needle ≠ [] := List.ne_nil_of_length_pos (by omega)
    have stops_start : stops 32 haystack needle start = true := by
      rw [stops, first_lane, getElem?_of_candidate nonempty occurs, occurs, Bool.true_or,
        Bool.and_true, beq_self_eq_true]
    rw [if_pos matches_start, List.range_succ_eq_map, List.map_cons, List.find?_cons,
      Nat.add_zero, stops_start, Option.mapM_some, stopOutcome, if_neg (by omega)]
    rfl
  · exact scanBlock_eq le_rfl width.ge inside aligned

private theorem sse2Body_eq {haystack needle : List UInt8} {start : ℕ}
    (width : needle.length = 32) (inside : start + needle.length ≤ haystack.length)
    (aligned : 16 ∣ start) :
    sse2Body haystack needle (needle.take 16) start =
      (((List.range 16).map (start + ·)).find? (stops 16 haystack needle)).mapM
        (stopOutcome 16) := by
  have room : 16 ≤ (haystack.drop start).length := by
    rw [List.length_drop]
    omega
  rw [sse2Body, loadLanes_ok room]
  exact scanBlock_eq (by omega) (by omega) inside aligned

private theorem scalarBody_eq {haystack needle : List UInt8} {start : ℕ} (nonempty : needle ≠ [])
    (inside : start + needle.length ≤ haystack.length) :
    scalarBody haystack needle start =
      (((List.range 1).map (start + ·)).find? (stops 1 haystack needle)).mapM
        (stopOutcome 1) := by
  have occurs_eq : candidate haystack needle start =
      memcmpEq (haystack.drop start) needle needle.length := by
    rw [candidate, decide_eq_true inside, Bool.true_and]
  rw [scalarBody, List.range_one, List.map_singleton, Nat.add_zero, List.find?_singleton, stops,
    Nat.mod_one, occurs_eq]
  cases same : memcmpEq (haystack.drop start) needle needle.length with
  | false => simp
  | true =>
      rw [same] at occurs_eq
      rw [getElem?_of_candidate nonempty occurs_eq, if_pos rfl, Bool.true_or, Bool.and_true,
        beq_self_eq_true, if_pos rfl, Option.mapM_some, stopOutcome, Nat.mod_one]
      rfl

/-- Every variant ends at the least stop of the blocks that it visits. -/
theorem fastMemmem_eq_find? (target : SimdTarget) {haystack needle : List UInt8}
    (width : needle.length = 32) (long : needle.length ≤ haystack.length) :
    fastMemmem target haystack needle =
      ((Search.blockPositions target.lanes (haystack.length - needle.length)).find?
        (stops target.lanes haystack needle)).mapM (stopOutcome target.lanes) := by
  have inside : ∀ start ≤ haystack.length - needle.length,
      start + needle.length ≤ haystack.length := by
    intro start start_le
    omega
  have nonempty : needle ≠ [] := List.ne_nil_of_length_pos (by omega)
  rw [fastMemmem, if_neg (by omega)]
  cases target with
  | avx2 =>
      simp only [loadLanes_ok width.ge]
      exact Search.strided_eq_find? fun start start_le aligned =>
        avx2Body_eq width (inside start start_le) aligned
  | sse2 =>
      simp only [loadLanes_ok (show 16 ≤ needle.length by omega)]
      exact Search.strided_eq_find? fun start start_le aligned =>
        sse2Body_eq width (inside start start_le) aligned
  | scalar =>
      exact Search.strided_eq_find? fun start start_le _ =>
        scalarBody_eq nonempty (inside start start_le)

/-- Data shorter than the needle is not searched. -/
theorem fastMemmem_of_short (target : SimdTarget) {haystack needle : List UInt8}
    (short : haystack.length < needle.length) : fastMemmem target haystack needle = .ok none :=
  if_pos (.inr short)

/-! ## Agreement of the variants -/

/-- `pos` is the least offset at which `needle` occurs. -/
structure FirstOccurrence (haystack needle : List UInt8) (pos : ℕ) : Prop where
  here : needle <+: haystack.drop pos
  least : ∀ earlier < pos, ¬ needle <+: haystack.drop earlier

/-- No block is scanned down to its sign bit: where the last of 32 lanes is set, an occurrence
starts before it. -/
def SignLaneClear (lanes : ℕ) (haystack needle : List UInt8) : Prop :=
  ∀ pos, pos % lanes = 31 → haystack[pos]? = needle[31]? →
    ∃ earlier < pos, needle <+: haystack.drop earlier

theorem signLaneClear_of_narrow {lanes : ℕ} (positive : 0 < lanes) (narrow : lanes < 32)
    (haystack needle : List UInt8) : SignLaneClear lanes haystack needle := by
  intro pos lane _
  have := Nat.mod_lt pos positive
  omega

private theorem mapM_stopOutcome_eq_some {lanes pos : ℕ} {stop : Option ℕ} :
    stop.mapM (stopOutcome lanes) = .ok (some pos) ↔ stop = some pos ∧ pos % lanes ≠ 31 := by
  cases stop with
  | none => simp [pure, Except.pure]
  | some stop =>
      rw [Option.mapM_some, stopOutcome, Option.some.injEq]
      split
      · rename_i sign
        simp only [Functor.map, Except.map, reduceCtorEq, false_iff, not_and, not_not]
        rintro rfl
        exact sign
      · rename_i value
        simp only [Functor.map, Except.map, Except.ok.injEq, Option.some.injEq, iff_self_and]
        rintro rfl
        exact value

private theorem mapM_stopOutcome_eq_none {lanes : ℕ} {stop : Option ℕ} :
    stop.mapM (stopOutcome lanes) = .ok none ↔ stop = none := by
  cases stop with
  | none => simp [pure, Except.pure]
  | some stop =>
      rw [Option.mapM_some, stopOutcome]
      split <;> simp [Functor.map, Except.map]

/-- Only an occurrence is ever reported, at a position that holds the needle byte of its lane and
not at the sign bit, and no position before it stops the search. -/
theorem fastMemmem_eq_some {target : SimdTarget} {haystack needle : List UInt8} {pos : ℕ}
    (width : needle.length = 32) (found : fastMemmem target haystack needle = .ok (some pos)) :
    needle <+: haystack.drop pos ∧ haystack[pos]? = needle[pos % target.lanes]? ∧
      pos % target.lanes ≠ 31 ∧
        ∀ earlier < pos, stops target.lanes haystack needle earlier = false := by
  have nonempty : needle ≠ [] := List.ne_nil_of_length_pos (by omega)
  have long : needle.length ≤ haystack.length := by
    by_contra short
    rw [fastMemmem_of_short target (by omega)] at found
    simp at found
  rw [fastMemmem_eq_find? target width long, mapM_stopOutcome_eq_some, Search.blockPositions,
    List.find?_range_eq_some] at found
  obtain ⟨⟨stop, _, none_before⟩, value⟩ := found
  rw [stops, Bool.and_eq_true, Bool.or_eq_true, beq_iff_eq, beq_iff_eq] at stop
  refine ⟨(candidate_iff nonempty).mp (stop.2.resolve_right value), stop.1, value, ?_⟩
  intro earlier before
  simpa using none_before earlier before

/-- The search comes back empty only when no visited position stops it. -/
theorem fastMemmem_eq_none {target : SimdTarget} {haystack needle : List UInt8}
    (width : needle.length = 32) (long : needle.length ≤ haystack.length)
    (missing : fastMemmem target haystack needle = .ok none) :
    ∀ pos ∈ Search.blockPositions target.lanes (haystack.length - needle.length),
      stops target.lanes haystack needle pos = false := by
  rw [fastMemmem_eq_find? target width long, mapM_stopOutcome_eq_none,
    List.find?_eq_none] at missing
  intro pos visited
  simpa using missing pos visited

/-- With clear sign lanes only occurrences stop the search. -/
private theorem occurs_of_stops {lanes pos : ℕ} {haystack needle : List UInt8}
    (nonempty : needle ≠ []) (clear : SignLaneClear lanes haystack needle)
    (stop : stops lanes haystack needle pos = true) :
    ∃ start ≤ pos, needle <+: haystack.drop start := by
  rw [stops, Bool.and_eq_true, Bool.or_eq_true, beq_iff_eq, beq_iff_eq] at stop
  obtain ⟨lane, occurs | sign⟩ := stop
  · exact ⟨pos, le_rfl, (candidate_iff nonempty).mp occurs⟩
  · obtain ⟨earlier, before, starts⟩ := clear pos sign (by rw [lane, sign])
    exact ⟨earlier, before.le, starts⟩

theorem fastMemmem_of_first {target : SimdTarget} {haystack needle : List UInt8} {pos : ℕ}
    (width : needle.length = 32) (clear : SignLaneClear target.lanes haystack needle)
    (first : FirstOccurrence haystack needle pos)
    (lane : needle[pos % target.lanes]? = needle[0]?) :
    fastMemmem target haystack needle = .ok (some pos) := by
  have nonempty : needle ≠ [] := List.ne_nil_of_length_pos (by omega)
  have length_le := first.here.length_le
  rw [List.length_drop] at length_le
  have occurs := (candidate_iff nonempty).mpr first.here
  have text_byte : haystack[pos]? = needle[pos % target.lanes]? :=
    (getElem?_of_candidate nonempty occurs).trans lane.symm
  have value : pos % target.lanes ≠ 31 := by
    intro sign
    obtain ⟨earlier, before, starts⟩ := clear pos sign (by rw [text_byte, sign])
    exact first.least earlier before starts
  rw [fastMemmem_eq_find? target width (by omega), mapM_stopOutcome_eq_some,
    Search.blockPositions, List.find?_range_eq_some]
  refine ⟨⟨?_, ?_, ?_⟩, value⟩
  · rw [stops, text_byte, occurs, beq_self_eq_true, Bool.true_or, Bool.true_and]
  · exact (Search.mem_blockPositions target.lanes_pos).mpr
      ((Nat.mul_div_le pos target.lanes).trans (by omega))
  · intro earlier before
    rw [Bool.not_eq_true']
    by_contra stop
    rw [Bool.not_eq_false] at stop
    obtain ⟨start, start_le, starts⟩ := occurs_of_stops nonempty clear stop
    exact first.least start (by omega) starts

theorem fastMemmem_of_absent (target : SimdTarget) {haystack needle : List UInt8}
    (width : needle.length = 32) (clear : SignLaneClear target.lanes haystack needle)
    (absent : ∀ pos, ¬ needle <+: haystack.drop pos) :
    fastMemmem target haystack needle = .ok none := by
  have nonempty : needle ≠ [] := List.ne_nil_of_length_pos (by omega)
  rcases Nat.lt_or_ge haystack.length needle.length with short | long
  · exact fastMemmem_of_short target short
  · rw [fastMemmem_eq_find? target width long, mapM_stopOutcome_eq_none, List.find?_eq_none]
    intro pos _ stop
    obtain ⟨start, _, starts⟩ := occurs_of_stops nonempty clear stop
    exact absent start starts

/-- The scalar loop is always defined and returns the least offset of an occurrence. -/
theorem fastMemmem_scalar_eq_some_iff (haystack : List UInt8) {needle : List UInt8}
    (width : needle.length = 32) (pos : ℕ) :
    fastMemmem .scalar haystack needle = .ok (some pos) ↔ FirstOccurrence haystack needle pos := by
  have clear := signLaneClear_of_narrow Nat.one_pos (by omega) haystack needle
  have nonempty : needle ≠ [] := List.ne_nil_of_length_pos (by omega)
  constructor
  · intro found
    obtain ⟨here, _, _, none_before⟩ := fastMemmem_eq_some width found
    refine ⟨here, fun earlier before starts => ?_⟩
    have occurs := (candidate_iff nonempty).mpr starts
    have stop := none_before earlier before
    rw [stops, SimdTarget.lanes, Nat.mod_one, getElem?_of_candidate nonempty occurs, occurs] at stop
    simp at stop
  · intro first
    exact fastMemmem_of_first width clear first (by rw [SimdTarget.lanes, Nat.mod_one])

private theorem exists_firstOccurrence {haystack needle : List UInt8} {pos : ℕ}
    (occurs : needle <+: haystack.drop pos) : ∃ first, FirstOccurrence haystack needle first := by
  classical
  have present : ∃ offset, needle <+: haystack.drop offset := ⟨pos, occurs⟩
  exact ⟨Nat.find present, Nat.find_spec present, fun earlier before => Nat.find_min present before⟩

private theorem isInfix_iff_exists_isPrefix {haystack needle : List UInt8} :
    needle <:+: haystack ↔ ∃ pos, needle <+: haystack.drop pos := by
  constructor
  · rintro ⟨front, back, rfl⟩
    exact ⟨front.length, back, by simp⟩
  · rintro ⟨pos, starts⟩
    exact starts.isInfix.trans (List.drop_suffix pos haystack).isInfix

/-- A search that is defined has returned before the sign bit of every block. -/
theorem signLaneClear_of_ok {target : SimdTarget} {haystack needle : List UInt8}
    {offset : Option ℕ} (width : needle.length = 32)
    (result : fastMemmem target haystack needle = .ok offset) :
    SignLaneClear target.lanes haystack needle := by
  intro pos sign lane
  have last : 31 < needle.length := by omega
  have inside : pos < haystack.length := by
    rw [List.getElem?_eq_getElem last] at lane
    exact (List.getElem?_eq_some_iff.mp lane).1
  have block_start : target.lanes * (pos / target.lanes) = pos - 31 := by
    have := Nat.div_add_mod pos target.lanes
    omega
  have above : 31 ≤ pos := sign ▸ Nat.mod_le pos target.lanes
  have long : needle.length ≤ haystack.length := by omega
  have stop : stops target.lanes haystack needle pos = true := by
    rw [stops, sign, lane, beq_self_eq_true, beq_self_eq_true, Bool.or_true, Bool.true_and]
  cases offset with
  | none =>
      have visited := (Search.mem_blockPositions target.lanes_pos).mpr
        (block_start.le.trans (show pos - 31 ≤ haystack.length - needle.length by omega))
      have passed := fastMemmem_eq_none width long result pos visited
      rw [stop] at passed
      contradiction
  | some found =>
      obtain ⟨here, _, value, none_before⟩ := fastMemmem_eq_some width result
      refine ⟨found, ?_, here⟩
      rcases Nat.lt_trichotomy found pos with before | rfl | after
      · exact before
      · exact absurd sign value
      · have passed := none_before pos after
        rw [stop] at passed
        contradiction

/-- On this haystack and program id every compiled variant returns what the scalar loop returns,
the least offset of an occurrence or none, and the detector finds an enabled program id exactly
when it occurs. -/
def VariantsAgree (haystack : List UInt8) (program : Pubkey) : Prop :=
  ∀ target,
    fastMemmem target haystack program.bytes = fastMemmem .scalar haystack program.bytes ∧
      (∃ offset, fastMemmem target haystack program.bytes = .ok offset ∧
        ∀ pos, offset = some pos ↔ FirstOccurrence haystack program.bytes pos) ∧
      ∀ enabled, ∃ found,
        protocolDetectorMatchProgram target { programId := program, enabled } (some haystack) =
          .ok found ∧
        (found = true ↔ enabled = true ∧ program.bytes <:+: haystack)

/-- A search that returns the least occurrence or none decides the detector. -/
private theorem protocolDetectorMatchProgram_eq {target : SimdTarget} {haystack : List UInt8}
    {program : Pubkey} {offset : Option ℕ}
    (result : fastMemmem target haystack program.bytes = .ok offset)
    (least : ∀ pos, offset = some pos ↔ FirstOccurrence haystack program.bytes pos)
    (enabled : Bool) :
    ∃ found,
      protocolDetectorMatchProgram target { programId := program, enabled } (some haystack) =
        .ok found ∧
      (found = true ↔ enabled = true ∧ program.bytes <:+: haystack) := by
  refine ⟨enabled && offset.isSome, ?_, ?_⟩
  · cases enabled with
    | false => rfl
    | true =>
        simp only [protocolDetectorMatchProgram, if_true, result, Bool.true_and]
        rfl
  · rw [Bool.and_eq_true, Option.isSome_iff_exists, isInfix_iff_exists_isPrefix]
    apply and_congr_right
    intro _
    constructor
    · rintro ⟨pos, found⟩
      exact ⟨pos, ((least pos).mp found).here⟩
    · rintro ⟨pos, starts⟩
      obtain ⟨first, first_occurs⟩ := exists_firstOccurrence starts
      exact ⟨first, (least first).mpr first_occurs⟩

/-- The result of a variant whose sign lanes are clear and whose lanes can see the first
occurrence. -/
private theorem fastMemmem_eq_least {target : SimdTarget} {haystack needle : List UInt8}
    (width : needle.length = 32) (clear : SignLaneClear target.lanes haystack needle)
    (lane : ∀ pos, FirstOccurrence haystack needle pos →
      needle[pos % target.lanes]? = needle[0]?) :
    ∃ offset, fastMemmem target haystack needle = .ok offset ∧
      fastMemmem .scalar haystack needle = .ok offset ∧
      ∀ pos, offset = some pos ↔ FirstOccurrence haystack needle pos := by
  have clear_scalar := signLaneClear_of_narrow Nat.one_pos (by omega) haystack needle
  have least_unique : ∀ {pos other}, FirstOccurrence haystack needle pos →
      FirstOccurrence haystack needle other → pos = other := by
    intro pos other first first'
    have not_before : ¬ other < pos := fun before => first.least other before first'.here
    have not_after : ¬ pos < other := fun after => first'.least pos after first.here
    omega
  by_cases present : ∃ pos, needle <+: haystack.drop pos
  · obtain ⟨pos, starts⟩ := present
    obtain ⟨first, occurs⟩ := exists_firstOccurrence starts
    refine ⟨some first, fastMemmem_of_first width clear occurs (lane first occurs),
      (fastMemmem_scalar_eq_some_iff haystack width first).mpr occurs, fun pos => ?_⟩
    constructor
    · rintro ⟨⟩
      exact occurs
    · intro other
      rw [least_unique occurs other]
  · rw [not_exists] at present
    refine ⟨none, fastMemmem_of_absent target width clear present,
      fastMemmem_of_absent .scalar width clear_scalar present, fun pos => ?_⟩
    simp only [reduceCtorEq, false_iff]
    exact fun first => present pos first.here

/-- The variants agree exactly when the first occurrence, if there is one, lies in lanes whose
needle byte repeats the first byte of the needle, and no block is scanned down to the sign bit of
the AVX2 mask. -/
theorem variantsAgree_iff (haystack : List UInt8) (program : Pubkey) :
    VariantsAgree haystack program ↔
      (∀ pos, FirstOccurrence haystack program.bytes pos →
        program.bytes[pos % 32]? = program.bytes[0]? ∧
          program.bytes[pos % 16]? = program.bytes[0]?) ∧
      SignLaneClear 32 haystack program.bytes := by
  have nonempty : program.bytes ≠ [] := List.ne_nil_of_length_pos (by rw [program.width]; omega)
  constructor
  · intro agree
    refine ⟨fun pos first => ?_, fun pos sign lane => ?_⟩
    · have text_byte := getElem?_of_candidate nonempty
        ((candidate_iff nonempty).mpr first.here)
      have lane_of_target : ∀ target : SimdTarget,
          program.bytes[pos % target.lanes]? = program.bytes[0]? := by
        intro target
        obtain ⟨_, ⟨offset, result, least⟩, _⟩ := agree target
        obtain rfl := (least pos).mpr first
        obtain ⟨_, lane, _, _⟩ := fastMemmem_eq_some program.width result
        exact lane.symm.trans text_byte
      exact ⟨lane_of_target .avx2, lane_of_target .sse2⟩
    · obtain ⟨_, ⟨offset, result, _⟩, _⟩ := agree .avx2
      exact signLaneClear_of_ok program.width result pos sign lane
  · rintro ⟨aligned, clear⟩ target
    have clear_target : SignLaneClear target.lanes haystack program.bytes := by
      cases target with
      | avx2 => exact clear
      | sse2 => exact signLaneClear_of_narrow (by decide) (by decide) haystack program.bytes
      | scalar => exact signLaneClear_of_narrow (by decide) (by decide) haystack program.bytes
    have lane : ∀ pos, FirstOccurrence haystack program.bytes pos →
        program.bytes[pos % target.lanes]? = program.bytes[0]? := by
      intro pos first
      cases target with
      | avx2 => exact (aligned pos first).1
      | sse2 => exact (aligned pos first).2
      | scalar => rw [SimdTarget.lanes, Nat.mod_one]
    obtain ⟨offset, result, scalar, least⟩ := fastMemmem_eq_least program.width clear_target lane
    exact ⟨result.trans scalar.symm, ⟨offset, result, least⟩,
      protocolDetectorMatchProgram_eq result least⟩

/-- The program id `1, 2, …, 32`. -/
def countingKey : Pubkey where
  bytes := (List.range 32).map fun index => UInt8.ofNat (index + 1)
  width := by decide

/-- One byte in front of the program id hides it from both vector bodies. -/
theorem not_variantsAgree_shifted : ¬ VariantsAgree (0 :: countingKey.bytes) countingKey := by
  intro agree
  have scalar : fastMemmem .scalar (0 :: countingKey.bytes) countingKey.bytes = .ok (some 1) := by
    decide +kernel
  have vector : fastMemmem .avx2 (0 :: countingKey.bytes) countingKey.bytes = .ok none := by
    decide +kernel
  have same := (agree .avx2).1
  rw [scalar, vector] at same
  contradiction

/-- A block that shares only its last byte with the program id leaves `INT_MIN` as the mask. -/
theorem not_variantsAgree_signLane :
    ¬ VariantsAgree (List.replicate 31 0 ++ [32]) countingKey := by
  intro agree
  have overflow : fastMemmem .avx2 (List.replicate 31 0 ++ [32]) countingKey.bytes =
      .error .signedOverflow := by
    decide +kernel
  obtain ⟨offset, result, _⟩ := (agree .avx2).2.1
  rw [overflow] at result
  contradiction

end YureiGeyser
