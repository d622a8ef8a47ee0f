import Mathlib.Data.List.Basic
import YureiGeyser.Library.Search

/-!
# Bytes, C strings and undefined behaviour

The program reads NUL-terminated strings and stores into fixed-size buffers.  `CString` is the
text of such a string, without its terminator, and `Fault` is the outcome of a load or a store
outside a buffer and of a signed overflow: C gives them no meaning, so neither does the model.
-/

namespace YureiGeyser

/-- What stops a computation whose behaviour C leaves undefined. -/
inductive Fault
  /-- A load or a store beyond the end of a buffer. -/
  | outOfBounds
  /-- A signed result that its type cannot hold. -/
  | signedOverflow
  deriving DecidableEq, Repr

/-- The bytes of an ASCII string literal. -/
def ascii (text : String) : List UInt8 :=
  text.toList.map fun letter => UInt8.ofNat letter.toNat

/-- The text of a NUL-terminated string. -/
structure CString where
  /-- The bytes before the terminator. -/
  bytes : List UInt8
  /-- The terminator is the first zero byte. -/
  noNul : ∀ byte ∈ bytes, byte ≠ 0
  deriving DecidableEq

namespace CString

/-- The empty string. -/
def empty : CString where
  bytes := []
  noNul := by simp

/-- Concatenation of texts. -/
def append (left right : CString) : CString where
  bytes := left.bytes ++ right.bytes
  noNul := by
    intro byte member
    rcases List.mem_append.mp member with member | member
    · exact left.noNul byte member
    · exact right.noNul byte member

instance : Append CString := ⟨append⟩

@[simp] theorem bytes_append (left right : CString) :
    (left ++ right).bytes = left.bytes ++ right.bytes := rfl

@[simp] theorem bytes_empty : empty.bytes = [] := rfl

/-- `strlen`. -/
def strlen (text : CString) : ℕ :=
  text.bytes.length

/-- `strstr`: the text from the first occurrence of `needle` on. -/
def strstr (text needle : CString) : Option (List UInt8) :=
  Search.suffixFrom needle.bytes text.bytes

end CString

/-! ## Buffers -/

/-- `buffer[pos]`. -/
def load (buffer : List UInt8) (pos : ℕ) : Except Fault UInt8 :=
  match buffer[pos]? with
  | some byte => .ok byte
  | none => .error .outOfBounds

/-- `buffer[pos] = byte`. -/
def store (buffer : List UInt8) (pos : ℕ) (byte : UInt8) : Except Fault (List UInt8) :=
  if pos < buffer.length then .ok (buffer.set pos byte) else .error .outOfBounds

/-- Stores into consecutive entries from `pos` on. -/
def storeAll (buffer : List UInt8) (pos : ℕ) : List UInt8 → Except Fault (List UInt8)
  | [] => .ok buffer
  | byte :: bytes => do
      let buffer ← store buffer pos byte
      storeAll buffer (pos + 1) bytes

theorem storeAll_append (buffer : List UInt8) (pos : ℕ) (front back : List UInt8) :
    storeAll buffer pos (front ++ back) =
      storeAll buffer pos front >>= fun buffer => storeAll buffer (pos + front.length) back := by
  induction front generalizing buffer pos with
  | nil => rfl
  | cons byte front ih =>
      simp only [List.cons_append, storeAll, List.length_cons]
      cases store buffer pos byte with
      | error fault => rfl
      | ok buffer =>
          change storeAll buffer (pos + 1) (front ++ back) =
            storeAll buffer (pos + 1) front >>= _
          rw [ih, Nat.add_right_comm, Nat.add_assoc]

theorem store_eq_storeAll (buffer : List UInt8) (pos : ℕ) (byte : UInt8) :
    store buffer pos byte = storeAll buffer pos [byte] := by
  rw [storeAll]
  cases store buffer pos byte <;> rfl

/-- Stores with room for them replace a stretch of the buffer and nothing else. -/
theorem storeAll_eq {buffer bytes : List UInt8} {pos : ℕ}
    (room : pos + bytes.length ≤ buffer.length) :
    storeAll buffer pos bytes =
      .ok (buffer.take pos ++ bytes ++ buffer.drop (pos + bytes.length)) := by
  induction bytes generalizing buffer pos with
  | nil => simp [storeAll]
  | cons byte bytes ih =>
      rw [List.length_cons] at room
      have inside : pos < buffer.length := by omega
      have front : (buffer.set pos byte).take (pos + 1) = buffer.take pos ++ [byte] := by
        rw [List.take_add_one, List.take_set_of_le le_rfl, List.getElem?_set_self inside]
        rfl
      have back : (buffer.set pos byte).drop (pos + 1 + bytes.length) =
          buffer.drop (pos + (bytes.length + 1)) := by
        rw [List.drop_set_of_lt (by omega)]
        congr 1
        omega
      rw [storeAll, store, if_pos inside]
      change storeAll (buffer.set pos byte) (pos + 1) bytes = _
      rw [ih (by rw [List.length_set]; omega), front, back, List.length_cons]
      simp

theorem storeAll_zero {buffer bytes : List UInt8} (room : bytes.length ≤ buffer.length) :
    storeAll buffer 0 bytes = .ok (bytes ++ buffer.drop bytes.length) := by
  rw [storeAll_eq (by omega), List.take_zero, List.nil_append, Nat.zero_add]

/-- Two stretches that follow each other at the start of a buffer. -/
theorem storeAll_storeAll (buffer front back : List UInt8)
    (room : front.length + back.length ≤ buffer.length) :
    (storeAll buffer 0 front >>= fun buffer => storeAll buffer front.length back) =
      .ok (front ++ back ++ buffer.drop (front.length + back.length)) := by
  have joined := storeAll_append buffer 0 front back
  rw [Nat.zero_add] at joined
  rw [← joined, storeAll_zero (by rw [List.length_append]; exact room), List.length_append]

/-- A text in two parts and its terminator. -/
theorem storeAll_terminated (buffer front back : List UInt8)
    (room : front.length + back.length + 1 ≤ buffer.length) :
    (storeAll buffer 0 front >>= fun buffer =>
      storeAll buffer front.length back >>= fun buffer =>
        store buffer (front.length + back.length) 0) =
      .ok (front ++ back ++ 0 :: buffer.drop (front.length + back.length + 1)) := by
  have longer : (back ++ [0]).length = back.length + 1 := List.length_append
  have stored := storeAll_storeAll buffer front (back ++ [0]) (by rw [longer]; exact room)
  simp only [store_eq_storeAll, ← storeAll_append]
  rw [stored, longer]
  simp [Nat.add_assoc]

end YureiGeyser
