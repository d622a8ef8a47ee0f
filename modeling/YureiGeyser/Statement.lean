import YureiGeyser.Base58
import YureiGeyser.Event

/-!
# INSERT statements

The two flush functions of `db_writer.c` build their statements alike: a header, then one row for
every event of the batch, printed with `snprintf` at a running offset into a buffer that is sized
in advance.  `Table` holds what differs between them.
-/

namespace YureiGeyser

open Positional

/-- An event whose type is known: its signature and the union member of that type. -/
structure Entry (α : Type) where
  signature : CString
  terminated : signature.strlen < maxSignatureLen
  record : α

/-- The entry of an event for the union member that its type selects. -/
def Event.entry {α : Type} (event : Event) (record : α) : Entry α where
  signature := event.signature
  terminated := event.terminated
  record := record

/-- `%lu`. -/
def decimal (number : UInt64) : List UInt8 :=
  if number = 0 then ascii "0"
  else (minimal 10 number.toNat).map fun digit => UInt8.ofNat (48 + digit)

theorem decimal_length_le (number : UInt64) : (decimal number).length ≤ 20 := by
  rw [decimal]
  split
  · decide
  · rw [List.length_map, minimal_length_le_iff (by norm_num)]
    exact number.toNat_lt.trans (by norm_num)

/-- A row: the slot, the quoted texts and the numbers. -/
def rowText (slot : UInt64) (texts : List (List UInt8)) (numbers : List UInt64) : List UInt8 :=
  ascii "(" ++ decimal slot ++ (texts.flatMap fun text => ascii ",'" ++ text ++ ascii "'") ++
    (numbers.flatMap fun number => ascii "," ++ decimal number) ++ ascii ")"

/-- The quoted texts of a row take up their own length and three more bytes each. -/
def quotedLength (texts : List (List UInt8)) : ℕ :=
  (texts.map fun text => text.length + 3).sum

theorem rowText_length_le (slot : UInt64) (texts : List (List UInt8)) (numbers : List UInt64) :
    (rowText slot texts numbers).length ≤ 22 + quotedLength texts + 21 * numbers.length := by
  have quoted : (texts.flatMap fun text => ascii ",'" ++ text ++ ascii "'").length =
      quotedLength texts := by
    rw [List.length_flatMap, quotedLength]
    congr 1
    apply List.map_congr_left
    intro text _
    simp [ascii]
  have printed : (numbers.flatMap fun number => ascii "," ++ decimal number).length ≤
      21 * numbers.length := by
    induction numbers with
    | nil => rfl
    | cons number numbers ih =>
        have width := decimal_length_le number
        rw [List.flatMap_cons, List.length_append, List.length_append, List.length_cons]
        have comma : (ascii ",").length = 1 := rfl
        omega
  have slotWidth := decimal_length_le slot
  have opening : (ascii "(").length = 1 := rfl
  have closing : (ascii ")").length = 1 := rfl
  simp only [rowText, List.length_append]
  omega

/-- What a flush function knows about its table. -/
structure Table (α : Type) where
  /-- The text up to the rows. -/
  header : List UInt8
  /-- The bytes of the buffer that do not depend on the number of rows. -/
  headRoom : ℕ
  /-- The bytes of the buffer for a row. -/
  rowRoom : ℕ
  slot : α → UInt64
  /-- The keys, which are printed in Base58. -/
  keys : α → List Pubkey
  /-- The texts behind the keys. -/
  labels : α → List (List UInt8)
  numbers : α → List UInt64
  /-- The header and its terminator fit. -/
  headerFits : header.length < headRoom
  /-- A row and its comma fit: 87 letters of a signature and 63 of a key are the most. -/
  rowFits : ∀ record, 113 + 66 * (keys record).length + quotedLength (labels record) +
    21 * (numbers record).length ≤ rowRoom

/-- The table of `flush_pumpfun_batch`. -/
def pumpfunTable : Table PumpfunTrade where
  header :=
    ascii "INSERT INTO pumpfun_trades (slot, tx_signature, mint, trader, creator, side, " ++
      ascii "sol_amount, token_amount, fee_bps, fee_lamports, creator_fee_bps, " ++
      ascii "creator_fee_lamports, virtual_sol_reserves, virtual_token_reserves, " ++
      ascii "real_sol_reserves, real_token_reserves) VALUES "
  headRoom := 512
  rowRoom := 600
  slot := PumpfunTrade.slot
  keys trade := [trade.mint, trade.trader, trade.creator]
  labels trade := [if trade.isBuy then ascii "BUY" else ascii "SELL"]
  numbers trade :=
    [trade.solAmount, trade.tokenAmount, trade.feeBasisPoints, trade.feeLamports,
      trade.creatorFeeBasisPoints, trade.creatorFeeLamports, trade.virtualSolReserves,
      trade.virtualTokenReserves, trade.realSolReserves, trade.realTokenReserves]
  headerFits := by decide +kernel
  rowFits := by
    intro trade
    simp only [List.length_cons, List.length_nil]
    cases trade.isBuy <;> decide

/-- The table of `flush_raydium_batch`. -/
def raydiumTable : Table RaydiumSwap where
  header :=
    ascii "INSERT INTO raydium_swaps (slot, tx_signature, pool, user_owner, " ++
      ascii "amount_in, amount_out) VALUES "
  headRoom := 256
  rowRoom := 300
  slot := RaydiumSwap.slot
  keys swap := [swap.amm, swap.userSourceOwner]
  labels _ := []
  numbers swap := [swap.amountIn, swap.amountOut]
  headerFits := by decide +kernel
  rowFits := by
    intro swap
    simp only [List.length_cons, List.length_nil]
    decide

/-- The query buffer: the text in it, the running offset, and the entries printed so far. -/
structure Query (α : Type) where
  text : List UInt8
  offset : ℕ
  rows : List (Entry α)

/-- `offset += snprintf(query + offset, buf_size - offset, …)`: the text is cut off at the end of
the buffer, the offset is not, and an offset beyond the end makes the size wrap around. -/
def Query.snprintf {α : Type} (bufSize : ℕ) (query : Query α) (piece : List UInt8) :
    Except Fault (Query α) :=
  if bufSize < query.offset then .error .outOfBounds
  else
    .ok
      { query with
        text := query.text ++ piece.take (bufSize - query.offset - 1)
        offset := query.offset + piece.length }

/-- The Base58 text of a key, for the outcome of the allocation in `base58_encode`. -/
def encodeKey (alloc : ℕ → Bool) (key : Pubkey × ℕ) : Option CString :=
  Base58.base58Encode (alloc key.2) key.1.bytes 64

namespace Table

variable {α : Type} (table : Table α)

/-- The Base58 texts of the keys. -/
def encodeKeys (alloc : ℕ → Bool) (record : α) : Option (List CString) :=
  (table.keys record).zipIdx.mapM (encodeKey alloc)

/-- One iteration of the loop over the batch. -/
def appendRow (bufSize : ℕ) (alloc : ℕ → ℕ → Bool) (query : Query α) (entry : Entry α × ℕ) :
    Except Fault (Query α) :=
  let (event, i) := entry
  match table.encodeKeys (alloc i) event.record with
  | none => .ok query
  | some keys => do
      let query ← if i > 0 then query.snprintf bufSize (ascii ",") else .ok query
      let texts := event.signature.bytes :: keys.map CString.bytes ++ table.labels event.record
      let row := rowText (table.slot event.record) texts (table.numbers event.record)
      let query ← query.snprintf bufSize row
      return { query with rows := query.rows ++ [event] }

/-- The statement for a batch. -/
def buildQuery (alloc : ℕ → ℕ → Bool) (batch : List (Entry α)) : Except Fault (Query α) :=
  let bufSize := table.headRoom + batch.length * table.rowRoom
  batch.zipIdx.foldlM (table.appendRow bufSize alloc)
    { text := table.header, offset := table.header.length, rows := [] }

variable {table} {alloc : ℕ → Bool} {record : α}

private theorem length_of_mapM {keys : List Pubkey} {start : ℕ} {texts : List CString}
    (encoded : (keys.zipIdx start).mapM (encodeKey alloc) = some texts) :
    texts.length = keys.length ∧ ∀ text ∈ texts, text.strlen < 64 := by
  induction keys generalizing start texts with
  | nil =>
      cases encoded
      exact ⟨rfl, by simp⟩
  | cons key keys ih =>
      rw [List.zipIdx_cons, List.mapM_cons] at encoded
      obtain ⟨first, here, rest⟩ := Option.bind_eq_some_iff.mp encoded
      obtain ⟨later, there, same⟩ := Option.bind_eq_some_iff.mp rest
      cases same
      obtain ⟨count, short⟩ := ih there
      refine ⟨by rw [List.length_cons, List.length_cons, count], ?_⟩
      intro text member
      rcases List.mem_cons.mp member with rfl | member
      · exact Base58.base58Encode_strlen_lt here
      · exact short text member

theorem length_of_encodeKeys {keys : List CString}
    (encoded : table.encodeKeys alloc record = some keys) :
    keys.length = (table.keys record).length ∧ ∀ key ∈ keys, key.strlen < 64 :=
  length_of_mapM encoded

private theorem mapM_isSome (allocates : ∀ index, alloc index = true) (keys : List Pubkey)
    (start : ℕ) : ((keys.zipIdx start).mapM (encodeKey alloc)).isSome := by
  induction keys generalizing start with
  | nil => rfl
  | cons key keys ih =>
      have here : (encodeKey alloc (key, start)).isSome := by
        rw [encodeKey, allocates start]
        exact Base58.base58Encode_isSome_of_room (by rw [key.width]; decide)
      obtain ⟨first, first_eq⟩ := Option.isSome_iff_exists.mp here
      obtain ⟨later, later_eq⟩ := Option.isSome_iff_exists.mp (ih (start + 1))
      rw [List.zipIdx_cons, List.mapM_cons]
      simp only [first_eq, later_eq, Option.bind_eq_bind, Option.bind_some, Option.pure_def,
        Option.isSome_some]

theorem encodeKeys_isSome (allocates : ∀ index, alloc index = true) :
    (table.encodeKeys alloc record).isSome :=
  mapM_isSome allocates (table.keys record) 0

end Table

theorem quotedLength_append (front back : List (List UInt8)) :
    quotedLength (front ++ back) = quotedLength front + quotedLength back := by
  rw [quotedLength, List.map_append, List.sum_append, quotedLength, quotedLength]

theorem quotedLength_map_bytes_le {texts : List CString} {limit : ℕ}
    (short : ∀ text ∈ texts, text.strlen < limit) :
    quotedLength (texts.map CString.bytes) ≤ (limit + 2) * texts.length := by
  induction texts with
  | nil => exact Nat.zero_le _
  | cons text texts ih =>
      have here := short text List.mem_cons_self
      have rest := ih fun later member => short later (List.mem_cons_of_mem text member)
      rw [CString.strlen] at here
      rw [quotedLength] at rest ⊢
      rw [List.map_cons, List.map_cons, List.sum_cons, List.length_cons, Nat.mul_succ]
      omega

/-- A piece that leaves room for the terminator is printed in full. -/
theorem Query.snprintf_of_room {α : Type} {bufSize : ℕ} {query : Query α} {piece : List UInt8}
    (room : query.offset + piece.length < bufSize) :
    query.snprintf bufSize piece =
      .ok { query with text := query.text ++ piece, offset := query.offset + piece.length } := by
  rw [snprintf, if_neg (by omega), List.take_of_length_le (by omega)]

namespace Table

variable {α : Type} (table : Table α) {bufSize : ℕ} (alloc : ℕ → ℕ → Bool)

/-- The row of an entry, with a comma, is no longer than the room for it. -/
theorem rowText_length_lt (entry : Entry α) {index : ℕ} {keys : List CString}
    (encoded : table.encodeKeys (alloc index) entry.record = some keys) :
    (rowText (table.slot entry.record)
        (entry.signature.bytes :: keys.map CString.bytes ++ table.labels entry.record)
        (table.numbers entry.record)).length + 1 ≤ table.rowRoom := by
  obtain ⟨count, short⟩ := length_of_encodeKeys encoded
  have terminated := entry.terminated
  have fits := table.rowFits entry.record
  have keysLength := quotedLength_map_bytes_le short
  have textsLength : quotedLength
      (entry.signature.bytes :: keys.map CString.bytes ++ table.labels entry.record) =
        entry.signature.strlen + 3 + quotedLength (keys.map CString.bytes) +
          quotedLength (table.labels entry.record) := by
    rw [List.cons_append, ← List.singleton_append, quotedLength_append, quotedLength_append]
    simp only [quotedLength, List.map_singleton, List.sum_singleton, CString.strlen, Nat.add_assoc]
  have rowLength := rowText_length_le (table.slot entry.record)
    (entry.signature.bytes :: keys.map CString.bytes ++ table.labels entry.record)
    (table.numbers entry.record)
  rw [textsLength] at rowLength
  rw [maxSignatureLen] at terminated
  rw [count] at keysLength
  omega

/-- A row fits whenever there is room for a row of the largest size. -/
theorem appendRow_ok (query : Query α) (entry : Entry α) (index : ℕ)
    (room : query.offset + table.rowRoom < bufSize) :
    ∃ next, table.appendRow bufSize alloc query (entry, index) = .ok next ∧
      next.offset ≤ query.offset + table.rowRoom ∧
      ((table.encodeKeys (alloc index) entry.record).isSome →
        next.rows = query.rows ++ [entry]) := by
  rw [appendRow]
  cases encoded : table.encodeKeys (alloc index) entry.record with
  | none => exact ⟨query, rfl, Nat.le_add_right _ _, by simp⟩
  | some keys =>
      have fits := table.rowText_length_lt alloc entry encoded
      have comma : (ascii ",").length = 1 := rfl
      by_cases later : index > 0
      · simp only [if_pos later]
        rw [Query.snprintf_of_room (by omega)]
        simp only [bind, Except.bind]
        rw [Query.snprintf_of_room (by dsimp only; omega)]
        refine ⟨_, rfl, ?_, fun _ => rfl⟩
        dsimp only
        omega
      · simp only [if_neg later]
        simp only [bind, Except.bind]
        rw [Query.snprintf_of_room (by omega)]
        refine ⟨_, rfl, ?_, fun _ => rfl⟩
        dsimp only
        omega

private theorem appendRows_ok (batch : List (Entry α)) (query : Query α) (start : ℕ)
    (room : query.offset + batch.length * table.rowRoom < bufSize) :
    ∃ next, (batch.zipIdx start).foldlM (table.appendRow bufSize alloc) query = .ok next ∧
      ((∀ row key, alloc row key = true) → next.rows = query.rows ++ batch) := by
  induction batch generalizing query start with
  | nil => exact ⟨query, rfl, by simp⟩
  | cons entry batch ih =>
      rw [List.length_cons, Nat.succ_mul] at room
      have here : query.offset + table.rowRoom < bufSize := by omega
      obtain ⟨middle, appended, offset_le, rows⟩ := table.appendRow_ok alloc query entry start here
      obtain ⟨next, rest, rows'⟩ := ih middle (start + 1) (by omega)
      refine ⟨next, ?_, ?_⟩
      · rw [List.zipIdx_cons, List.foldlM_cons, appended]
        exact rest
      · intro allocates
        rw [rows' allocates, rows (encodeKeys_isSome (allocates start)), List.append_assoc,
          List.singleton_append]

/-- The statement for a batch never overruns its buffer, and when the allocations succeed it has a
row for every event. -/
theorem buildQuery_ok (batch : List (Entry α)) :
    ∃ query, table.buildQuery alloc batch = .ok query ∧
      ((∀ row key, alloc row key = true) → query.rows = batch) := by
  have fits := table.headerFits
  exact appendRows_ok table alloc batch _ 0 (by dsimp only; omega)

end Table

end YureiGeyser
