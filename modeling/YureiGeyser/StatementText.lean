import YureiGeyser.Base58Codec
import YureiGeyser.DbWriter
import YureiGeyser.Library.Tuples

/-!
# The text of the statements

What the flush functions give to `PQexec` is the header and a list of tuples, one for every entry
whose keys the encoder had memory for.  A reader of such lists gives the entries back.
-/

namespace YureiGeyser

open Tuples (Field)
open Base58 Positional

/-! ## Rows -/

/-- The Base58 text of a key. -/
def keyText (key : Pubkey) : CString :=
  base58Text (leading 0 key.bytes) (encodedDigits key.bytes)

/-- The tuple of an entry. -/
def Table.row {α : Type} (table : Table α) (entry : Entry α) : List Field :=
  .number (table.slot entry.record).toNat :: .text entry.signature.bytes ::
    ((table.keys entry.record).map fun key => .text (keyText key).bytes) ++
      (table.labels entry.record).map .text ++
        (table.numbers entry.record).map fun number => .number number.toNat

/-- The encoder has memory for the keys of an entry. -/
def Table.encodes {α : Type} (table : Table α) (alloc : ℕ → ℕ → Bool) (entry : Entry α × ℕ) :
    Bool :=
  (table.encodeKeys (alloc entry.2) entry.1.record).isSome

/-- The entries with a row in the statement, and their places in the batch. -/
def Table.written {α : Type} (table : Table α) (alloc : ℕ → ℕ → Bool) (batch : List (Entry α)) :
    List (Entry α × ℕ) :=
  batch.zipIdx.filter (table.encodes alloc)

/-- What an entry adds to the statement: the comma depends on its place in the batch. -/
def Table.piece {α : Type} (table : Table α) (entry : Entry α × ℕ) : List UInt8 :=
  (if entry.2 > 0 then [44] else []) ++ Tuples.printRow (table.row entry.1)

theorem decimal_eq (number : UInt64) : decimal number = Tuples.decimal number.toNat := by
  rw [decimal, Tuples.decimal]
  by_cases zero : number = 0
  · rw [if_pos zero, zero]
    rfl
  · have positive : ¬ number.toNat = 0 := fun same => zero (UInt64.toNat_inj.mp same)
    rw [if_neg zero, if_neg positive]

/-- The format of a row is that of a tuple. -/
theorem rowText_eq (slot : UInt64) (texts : List (List UInt8)) (numbers : List UInt64) :
    rowText slot texts numbers =
      Tuples.printRow (.number slot.toNat :: (texts.map Field.text ++
        numbers.map fun number => .number number.toNat)) := by
  have opening : ascii "(" = [40] := rfl
  have closing : ascii ")" = [41] := rfl
  have quoted : (fun text : List UInt8 => ascii ",'" ++ text ++ ascii "'") =
      fun text => (Field.text text).printNext := rfl
  have printed : (fun number : UInt64 => ascii "," ++ decimal number) =
      fun number => (Field.number number.toNat).printNext := by
    funext number
    rw [decimal_eq]
    rfl
  rw [rowText, opening, closing, quoted, printed, Tuples.printRow, List.flatMap_append,
    List.flatMap_map, List.flatMap_map, Field.print, decimal_eq]
  simp

/-! ## Keys -/

section Keys

variable {α : Type} {table : Table α}

theorem base58Encode_key (key : Pubkey) : base58Encode true key.bytes 64 = some (keyText key) := by
  have fits : (base58Encode true key.bytes 64).isSome :=
    base58Encode_isSome_of_room (by rw [key.width]; decide)
  rw [base58Encode_eq] at fits ⊢
  split at fits
  · next room => rw [if_pos room, keyText]
  · cases fits

theorem overAlphabet_keyText (key : Pubkey) : OverAlphabet (keyText key).bytes :=
  overAlphabet_base58Text _ (minimal_lt (by norm_num))

theorem mapM_encodeKey {alloc : ℕ → Bool} {keys : List Pubkey} {start : ℕ} {texts : List CString}
    (encoded : (keys.zipIdx start).mapM (encodeKey alloc) = some texts) :
    texts = keys.map keyText := by
  induction keys generalizing start texts with
  | nil =>
      cases encoded
      rfl
  | cons key keys ih =>
      rw [List.zipIdx_cons, List.mapM_cons] at encoded
      obtain ⟨first, here, rest⟩ := Option.bind_eq_some_iff.mp encoded
      obtain ⟨later, there, same⟩ := Option.bind_eq_some_iff.mp rest
      cases same
      rw [encodeKey] at here
      cases memory : alloc start with
      | false =>
          rw [memory] at here
          cases here
      | true =>
          rw [memory, base58Encode_key] at here
          cases here
          rw [ih there, List.map_cons]

/-- With memory for them the texts of the keys are those of their bytes. -/
theorem encodeKeys_eq_some {alloc : ℕ → Bool} {record : α} {texts : List CString}
    (encoded : table.encodeKeys alloc record = some texts) :
    texts = (table.keys record).map keyText :=
  mapM_encodeKey encoded

end Keys

/-! ## The loop -/

namespace Table

variable {α : Type} (table : Table α) {alloc : ℕ → ℕ → Bool} {size : ℕ}

theorem rowText_row {entry : Entry α} {texts : List CString}
    (encoded : texts = (table.keys entry.record).map keyText) :
    rowText (table.slot entry.record)
        (entry.signature.bytes :: texts.map CString.bytes ++ table.labels entry.record)
        (table.numbers entry.record) =
      Tuples.printRow (table.row entry) := by
  rw [rowText_eq, row, encoded]
  simp [Function.comp_def]

theorem piece_length_le {entry : Entry α × ℕ} (encodes : table.encodes alloc entry = true) :
    (table.piece entry).length ≤ table.rowRoom := by
  obtain ⟨texts, encoded⟩ := Option.isSome_iff_exists.mp encodes
  have fits := table.rowText_length_lt alloc entry.1 encoded
  rw [table.rowText_row (encodeKeys_eq_some encoded)] at fits
  rw [piece, List.length_append]
  have comma : (if entry.2 > 0 then [44] else [] : List UInt8).length ≤ 1 := by split <;> simp
  omega

/-- With room for it an entry adds its piece, if its keys are encoded, and nothing otherwise. -/
theorem appendRow_eq (query : Query α) (entry : Entry α × ℕ)
    (room : query.offset + table.rowRoom < size) :
    table.appendRow size alloc query entry =
      .ok (if table.encodes alloc entry then
        { text := query.text ++ table.piece entry
          offset := query.offset + (table.piece entry).length
          rows := query.rows ++ [entry.1] }
      else query) := by
  obtain ⟨event, i⟩ := entry
  rw [appendRow, encodes]
  cases encoded : table.encodeKeys (alloc i) event.record with
  | none => rfl
  | some texts =>
      have encodes : table.encodes alloc (event, i) = true := by rw [Table.encodes, encoded]; rfl
      have fits := table.piece_length_le encodes
      have text := table.rowText_row (encodeKeys_eq_some encoded)
      have comma : ascii "," = [44] := rfl
      rw [piece] at fits ⊢
      dsimp only at fits ⊢
      rw [text, comma]
      by_cases later : i > 0
      · rw [if_pos later, List.length_append, List.length_singleton] at fits
        simp only [if_pos later]
        rw [Query.snprintf_of_room (by rw [List.length_singleton]; omega)]
        simp only [bind, Except.bind]
        rw [Query.snprintf_of_room (by dsimp only; rw [List.length_singleton]; omega)]
        simp [pure, Except.pure, Nat.add_assoc, Nat.add_comm 1]
      · rw [if_neg later, List.nil_append] at fits
        simp only [if_neg later]
        simp only [bind, Except.bind]
        rw [Query.snprintf_of_room (by omega)]
        simp [pure, Except.pure]

/-- The query buffer once the entries are printed. -/
def printed (alloc : ℕ → ℕ → Bool) (entries : List (Entry α × ℕ)) (query : Query α) : Query α where
  text := query.text ++ (entries.filter (table.encodes alloc)).flatMap table.piece
  offset := query.offset + ((entries.filter (table.encodes alloc)).flatMap table.piece).length
  rows := query.rows ++ (entries.filter (table.encodes alloc)).map Prod.fst

theorem printed_offset_le (alloc : ℕ → ℕ → Bool) (entries : List (Entry α × ℕ))
    (query : Query α) :
    (table.printed alloc entries query).offset ≤ query.offset + entries.length * table.rowRoom := by
  apply Nat.add_le_add_left
  induction entries with
  | nil => exact Nat.zero_le _
  | cons entry entries ih =>
      rw [List.length_cons, Nat.succ_mul]
      cases encodes : table.encodes alloc entry with
      | false =>
          rw [List.filter_cons_of_neg (by rw [encodes]; decide)]
          omega
      | true =>
          have fits := table.piece_length_le encodes
          rw [List.filter_cons_of_pos encodes, List.flatMap_cons, List.length_append]
          omega

/-- The loop prints every piece in full. -/
theorem foldlM_appendRow (entries : List (Entry α × ℕ)) (query : Query α)
    (room : query.offset + entries.length * table.rowRoom < size) :
    entries.foldlM (table.appendRow size alloc) query = .ok (table.printed alloc entries query) := by
  induction entries generalizing query with
  | nil => simp [printed, pure, Except.pure]
  | cons entry entries ih =>
      rw [List.length_cons, Nat.succ_mul] at room
      rw [List.foldlM_cons, table.appendRow_eq query entry (by omega)]
      cases encodes : table.encodes alloc entry with
      | false =>
          have skipped : table.printed alloc (entry :: entries) query =
              table.printed alloc entries query := by
            rw [printed, List.filter_cons_of_neg (by rw [encodes]; decide), printed]
          rw [skipped]
          exact ih query (by omega)
      | true =>
          have fits := table.piece_length_le encodes
          have added : table.printed alloc (entry :: entries) query =
              table.printed alloc entries
                { text := query.text ++ table.piece entry
                  offset := query.offset + (table.piece entry).length
                  rows := query.rows ++ [entry.1] } := by
            simp [printed, List.filter_cons_of_pos encodes, Nat.add_assoc]
          rw [added, if_pos rfl]
          exact ih _ (by dsimp only; omega)

/-- The query buffer with the header. -/
def start : Query α where
  text := table.header
  offset := table.header.length
  rows := []

/-- The size of the query buffer. -/
def bufSize (count : ℕ) : ℕ :=
  table.headRoom + count * table.rowRoom

theorem start_room (count : ℕ) :
    table.start.offset + count * table.rowRoom < table.bufSize count := by
  have fits := table.headerFits
  rw [start, bufSize]
  dsimp only
  omega

/-- The statement for a batch has the pieces of its entries behind the header. -/
theorem buildQuery_eq (alloc : ℕ → ℕ → Bool) (batch : List (Entry α)) :
    table.buildQuery alloc batch = .ok (table.printed alloc batch.zipIdx table.start) := by
  have room : table.start.offset + batch.zipIdx.length * table.rowRoom <
      table.bufSize batch.length := by
    rw [List.length_zipIdx]
    exact table.start_room batch.length
  rw [buildQuery]
  exact table.foldlM_appendRow batch.zipIdx table.start room

/-- Behind the first place every piece is a row behind a comma. -/
theorem flatMap_piece {entries : List (Entry α × ℕ)} (later : ∀ entry ∈ entries, 0 < entry.2) :
    entries.flatMap table.piece =
      (entries.map fun entry => table.row entry.1).flatMap Tuples.printNextRow := by
  induction entries with
  | nil => rfl
  | cons entry entries ih =>
      have here := later entry List.mem_cons_self
      rw [List.flatMap_cons, List.map_cons, List.flatMap_cons,
        ih fun other member => later other (List.mem_cons_of_mem entry member), piece, if_pos here]
      rfl

/-- When the first entry has a row, the pieces are a list of tuples. -/
theorem flatMap_written {first : Entry α} (encodes : table.encodes alloc (first, 0) = true)
    (batch : List (Entry α)) :
    (table.written alloc (first :: batch)).flatMap table.piece =
      Tuples.printRows ((table.written alloc (first :: batch)).map fun entry =>
        table.row entry.1) := by
  rw [written, List.zipIdx_cons, List.filter_cons_of_pos encodes, List.flatMap_cons, List.map_cons,
    Tuples.printRows, table.flatMap_piece fun entry member => ?_]
  · rfl
  · exact Nat.lt_of_lt_of_le Nat.zero_lt_one
      (List.le_snd_of_mem_zipIdx (List.mem_filter.mp member).1)

/-- With memory for all keys every entry has a row. -/
theorem written_eq_zipIdx (allocates : ∀ row key, alloc row key = true) (batch : List (Entry α)) :
    table.written alloc batch = batch.zipIdx := by
  apply List.filter_eq_self.mpr
  intro entry member
  exact encodeKeys_isSome (allocates entry.2)

/-- The statement that a flush function gives to `PQexec`, if it gets that far. -/
def executed (env : FlushEnv) (conn : Bool) (batch : List (Entry α)) :
    Except Fault (Option (Query α)) :=
  if env.Executes conn batch then (table.buildQuery env.alloc batch).map some else .ok none

/-- It is what the flush function commits when `PQexec` reports success. -/
theorem executed_eq (count : Metrics → Metrics) (env : FlushEnv) (conn : Bool)
    (batch : List (Entry α)) (metrics : Metrics) :
    ∃ flushed query, flushBatch table count env conn batch metrics = .ok flushed ∧
      table.executed env conn batch = .ok query ∧
        flushed.committed = if env.execOk then query else none := by
  by_cases executes : env.Executes conn batch
  · obtain ⟨middle, -, flushed⟩ :=
      flushBatch_of_executes table count metrics executes (table.buildQuery_eq env.alloc batch)
    refine ⟨_, some (table.printed env.alloc batch.zipIdx table.start), flushed, ?_, ?_⟩
    · rw [executed, if_pos executes, buildQuery_eq]
      rfl
    · split <;> rfl
  · obtain ⟨ok, conn', metrics', flushed, -⟩ :=
      flushBatch_of_not_executes table count metrics executes
    refine ⟨_, none, flushed, by rw [executed, if_neg executes], ?_⟩
    split <;> rfl

end Table

/-! ## Reading the rows -/

/-- A 64-bit number. -/
def readWord (number : ℕ) : Option UInt64 :=
  if number < 2 ^ 64 then some (UInt64.ofNat number) else none

theorem ne_zero_of_not_mem {bytes : List UInt8} (noNul : 0 ∉ bytes) :
    ∀ byte ∈ bytes, byte ≠ 0 := by
  rintro byte member rfl
  exact noNul member

/-- A text without zero bytes. -/
def readText (bytes : List UInt8) : Option CString :=
  if noNul : 0 ∉ bytes then some ⟨bytes, ne_zero_of_not_mem noNul⟩ else none

/-- A key in Base58. -/
def readKey (bytes : List UInt8) : Option Pubkey := do
  let text ← readText bytes
  let key ← base58Decode true text 32
  if width : key.length = 32 then some ⟨key, width⟩ else none

/-- The side of a trade. -/
def readSide (bytes : List UInt8) : Option Bool :=
  if bytes = ascii "BUY" then some true else if bytes = ascii "SELL" then some false else none

/-- An entry with its signature. -/
def readEntry {α : Type} (signature : List UInt8) (record : α) : Option (Entry α) := do
  let signature ← readText signature
  if terminated : signature.strlen < maxSignatureLen then some ⟨signature, terminated, record⟩
  else none

/-- The trade of a row of `pumpfun_trades`, which has no column for the timestamp. -/
def readTradeRow : List Field → Option (Entry PumpfunTrade)
  | [.number slot, .text signature, .text mint, .text trader, .text creator, .text side,
      .number solAmount, .number tokenAmount, .number feeBasisPoints, .number feeLamports,
      .number creatorFeeBasisPoints, .number creatorFeeLamports, .number virtualSolReserves,
      .number virtualTokenReserves, .number realSolReserves, .number realTokenReserves] => do
      let trade : PumpfunTrade :=
        { mint := ← readKey mint
          trader := ← readKey trader
          creator := ← readKey creator
          solAmount := ← readWord solAmount
          tokenAmount := ← readWord tokenAmount
          isBuy := ← readSide side
          virtualSolReserves := ← readWord virtualSolReserves
          virtualTokenReserves := ← readWord virtualTokenReserves
          realSolReserves := ← readWord realSolReserves
          realTokenReserves := ← readWord realTokenReserves
          feeBasisPoints := ← readWord feeBasisPoints
          feeLamports := ← readWord feeLamports
          creatorFeeBasisPoints := ← readWord creatorFeeBasisPoints
          creatorFeeLamports := ← readWord creatorFeeLamports
          slot := ← readWord slot
          timestamp := 0 }
      readEntry signature trade
  | _ => none

/-- The swap of a row of `raydium_swaps`. -/
def readSwapRow : List Field → Option (Entry RaydiumSwap)
  | [.number slot, .text signature, .text amm, .text userSourceOwner, .number amountIn,
      .number amountOut] => do
      let swap : RaydiumSwap :=
        { amm := ← readKey amm
          userSourceOwner := ← readKey userSourceOwner
          amountIn := ← readWord amountIn
          amountOut := ← readWord amountOut
          slot := ← readWord slot }
      readEntry signature swap
  | _ => none

/-- Read a statement: the header of a table and a list of rows. -/
def Table.readBack {α : Type} (table : Table α) (readRow : List Field → Option (Entry α))
    (text : List UInt8) : Option (List (Entry α)) := do
  if text.take table.header.length = table.header then
    let rows ← Tuples.read (text.drop table.header.length)
    rows.mapM readRow
  else none

/-- An entry without the timestamp of its trade. -/
def Entry.untimed (entry : Entry PumpfunTrade) : Entry PumpfunTrade :=
  { entry with record := { entry.record with timestamp := 0 } }

theorem readWord_toNat (number : UInt64) : readWord number.toNat = some number := by
  rw [readWord, if_pos number.toNat_lt, UInt64.ofNat_toNat]

theorem readText_bytes (text : CString) : readText text.bytes = some text := by
  have noNul : 0 ∉ text.bytes := fun member => text.noNul 0 member rfl
  rw [readText, dif_pos noNul]

theorem readKey_keyText (key : Pubkey) : readKey (keyText key).bytes = some key := by
  have decoded : base58Decode true (keyText key) 32 = some key.bytes :=
    base58Decode_base58Encode (base58Encode_key key) key.width.le
  rw [readKey, readText_bytes]
  simp only [Option.bind_eq_bind, Option.bind_some, decoded]
  rw [dif_pos key.width]

theorem readEntry_bytes {α : Type} (entry : Entry α) (record : α) :
    readEntry entry.signature.bytes record = some { entry with record } := by
  rw [readEntry, readText_bytes]
  simp only [Option.bind_eq_bind, Option.bind_some]
  rw [dif_pos entry.terminated]

theorem readTradeRow_eq (entry : Entry PumpfunTrade) :
    readTradeRow (pumpfunTable.row entry) = some entry.untimed := by
  have side : readSide (if entry.record.isBuy then ascii "BUY" else ascii "SELL") =
      some entry.record.isBuy := by
    cases entry.record.isBuy <;> rfl
  simp only [Table.row, pumpfunTable, List.map_cons, List.map_nil, List.cons_append,
    List.nil_append, readTradeRow, readKey_keyText, readWord_toNat, side, Option.bind_eq_bind,
    Option.bind_some, readEntry_bytes]
  rfl

theorem readSwapRow_eq (entry : Entry RaydiumSwap) :
    readSwapRow (raydiumTable.row entry) = some entry := by
  simp only [Table.row, raydiumTable, List.map_cons, List.map_nil, List.cons_append,
    List.nil_append, readSwapRow, readKey_keyText, readWord_toNat, Option.bind_eq_bind,
    Option.bind_some, readEntry_bytes]

/-! ## Whole statements -/

/-- No key of a batch is skipped, the statement is printed in full, and its entries are read back. -/
structure Table.Faithful {α : Type} (table : Table α) (readRow : List Field → Option (Entry α))
    (visible : Entry α → Entry α) (env : FlushEnv) (conn : Bool) (batch : List (Entry α)) :
    Prop where
  encoded : ∀ entry ∈ batch, ∀ key ∈ table.keys entry.record,
    (base58Encode true key.bytes 64).isSome
  /-- At every turn of the loop the rows so far are in the buffer, and the terminator too. -/
  inside : ∀ front back, batch = front ++ back → ∃ query,
    front.zipIdx.foldlM (table.appendRow (table.bufSize batch.length) env.alloc) table.start =
        .ok query ∧
      query.text = table.header ++ Tuples.printRows (front.map table.row) ∧
      query.offset = query.text.length ∧ query.offset < table.bufSize batch.length
  executed : ∃ query, table.executed env conn batch = .ok (some query) ∧
    query.text = table.header ++ Tuples.printRows (batch.map table.row) ∧
    table.readBack readRow query.text = some (batch.map visible)

theorem quote_not_mem {letters : List UInt8} (known : OverAlphabet letters) : 39 ∉ letters := by
  intro member
  have foreign : (39 : UInt8) ∉ alphabet := by decide
  exact foreign (known 39 member)

namespace Table

variable {α : Type} (table : Table α)

theorem row_ne_nil (entry : Entry α) : table.row entry ≠ [] :=
  List.cons_ne_nil _ _

/-- Neither a key nor a signature can break the quotes of a row. -/
theorem plain_row (labels_plain : ∀ record, ∀ label ∈ table.labels record, 39 ∉ label)
    {entry : Entry α} (known : OverAlphabet entry.signature.bytes) :
    ∀ field ∈ table.row entry, field.Plain := by
  intro field member
  rw [row, List.cons_append, List.cons_append, List.cons_append, List.cons_append] at member
  rcases List.mem_cons.mp member with rfl | member
  · trivial
  rcases List.mem_cons.mp member with rfl | member
  · exact quote_not_mem known
  rcases List.mem_append.mp member with member | member
  · rcases List.mem_append.mp member with member | member
    · obtain ⟨key, -, rfl⟩ := List.mem_map.mp member
      exact quote_not_mem (overAlphabet_keyText key)
    · obtain ⟨label, inside, rfl⟩ := List.mem_map.mp member
      exact labels_plain entry.record label inside
  · obtain ⟨number, -, rfl⟩ := List.mem_map.mp member
    trivial

/-- With memory for the keys the buffer holds the rows of all entries. -/
theorem text_printed {alloc : ℕ → ℕ → Bool} (allocates : ∀ row key, alloc row key = true)
    (front : List (Entry α)) :
    (table.printed alloc front.zipIdx table.start).text =
      table.header ++ Tuples.printRows (front.map table.row) := by
  cases front with
  | nil => rfl
  | cons first front =>
      have encodes : table.encodes alloc (first, 0) = true := encodeKeys_isSome (allocates 0)
      have written := table.flatMap_written encodes front
      have places : (fun entry : Entry α × ℕ => table.row entry.1) = table.row ∘ Prod.fst := rfl
      rw [table.written_eq_zipIdx allocates, places, ← List.map_map, List.zipIdx_map_fst] at written
      have all := table.written_eq_zipIdx allocates (first :: front)
      rw [Table.written] at all
      rw [printed, all, written]
      rfl

theorem offset_printed (alloc : ℕ → ℕ → Bool) (entries : List (Entry α × ℕ)) :
    (table.printed alloc entries table.start).offset =
      (table.printed alloc entries table.start).text.length :=
  List.length_append.symm

/-- A statement is faithful when the labels have no quotes and the rows can be read. -/
theorem faithful {readRow : List Field → Option (Entry α)} {visible : Entry α → Entry α}
    (labels_plain : ∀ record, ∀ label ∈ table.labels record, 39 ∉ label)
    (reads : ∀ entry, readRow (table.row entry) = some (visible entry))
    {env : FlushEnv} (allocates : ∀ row key, env.alloc row key = true) {conn : Bool}
    {batch : List (Entry α)} (executes : env.Executes conn batch)
    (signatures : ∀ entry ∈ batch, OverAlphabet entry.signature.bytes) :
    table.Faithful readRow visible env conn batch where
  encoded entry _ key _ := by
    rw [base58Encode_key]
    rfl
  inside front back split := by
    have room := table.start_room batch.length
    rw [split, List.length_append, Nat.add_mul] at room
    have fits : table.start.offset + front.zipIdx.length * table.rowRoom <
        table.bufSize batch.length := by
      rw [List.length_zipIdx, split, List.length_append]
      omega
    have below := table.printed_offset_le env.alloc front.zipIdx table.start
    refine ⟨_, table.foldlM_appendRow front.zipIdx table.start fits, ?_, ?_, ?_⟩
    · exact table.text_printed allocates front
    · exact table.offset_printed env.alloc front.zipIdx
    · omega
  executed := by
    have text := table.text_printed allocates batch
    refine ⟨table.printed env.alloc batch.zipIdx table.start, ?_, text, ?_⟩
    · rw [Table.executed, if_pos executes, buildQuery_eq]
      rfl
    · have rows : Tuples.read (Tuples.printRows (batch.map table.row)) =
          some (batch.map table.row) := by
        apply Tuples.read_printRows
        · simpa using executes.1
        · intro row member
          obtain ⟨entry, -, rfl⟩ := List.mem_map.mp member
          exact table.row_ne_nil entry
        · intro row member
          obtain ⟨entry, inside, rfl⟩ := List.mem_map.mp member
          exact table.plain_row labels_plain (signatures entry inside)
      have columns : ∀ entries : List (Entry α), (entries.map table.row).mapM readRow =
          some (entries.map visible) := by
        intro entries
        induction entries with
        | nil => rfl
        | cons entry entries ih =>
            rw [List.map_cons, List.mapM_cons, reads, ih]
            rfl
      rw [readBack, text, List.take_left, if_pos rfl, List.drop_left, rows]
      simp only [Option.bind_eq_bind, Option.bind_some, columns]

end Table

/-- With memory for the keys both flush functions print every statement in full, inside the buffer,
and its text is a list of rows from which the entries are read back. -/
theorem statements_faithful {env : FlushEnv} (allocates : ∀ row key, env.alloc row key = true)
    (conn : Bool) :
    (∀ batch : List (Entry PumpfunTrade), env.Executes conn batch →
        (∀ entry ∈ batch, OverAlphabet entry.signature.bytes) →
          pumpfunTable.Faithful readTradeRow Entry.untimed env conn batch) ∧
      ∀ batch : List (Entry RaydiumSwap), env.Executes conn batch →
        (∀ entry ∈ batch, OverAlphabet entry.signature.bytes) →
          raydiumTable.Faithful readSwapRow id env conn batch := by
  have sides : ∀ record, ∀ label ∈ pumpfunTable.labels record, 39 ∉ label := by
    intro trade label member
    rw [List.mem_singleton.mp member]
    cases trade.isBuy <;> decide
  have unlabelled : ∀ record, ∀ label ∈ raydiumTable.labels record, 39 ∉ label := by
    intro swap label member
    cases member
  constructor
  · intro batch executes signatures
    exact pumpfunTable.faithful sides readTradeRow_eq allocates executes signatures
  · intro batch executes signatures
    exact raydiumTable.faithful unlabelled readSwapRow_eq allocates executes signatures

/-- A swap of the largest numbers. -/
def largestSwap : Entry RaydiumSwap where
  signature := CString.empty
  terminated := Event.zero.terminated
  record :=
    ⟨Pubkey.zero, Pubkey.zero, 18446744073709551615, 18446744073709551615, 18446744073709551615⟩

/-- A flush that meets no obstacle. -/
def healthyFlush : FlushEnv where
  connectOk := true
  statusOk := true
  startTime := ⟨0, 0⟩
  mallocOk := true
  alloc := fun _ _ => true
  execOk := true
  endTime := ⟨0, 0⟩

theorem statements_faithful_largest :
    raydiumTable.Faithful readSwapRow id healthyFlush false [largestSwap, largestSwap] := by
  refine (statements_faithful (fun _ _ => rfl) false).2 _ (by decide) ?_
  intro entry member letter inside
  have same : entry = largestSwap := by simpa using member
  rw [same] at inside
  cases inside

end YureiGeyser
