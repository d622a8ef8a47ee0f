import YureiGeyser.Event
import YureiGeyser.Library.Positional

/-!
# Packed little-endian records

The parsers overlay packed structs on byte strings.  A record is written here as the concatenation
of its fields, and a read at the offset of a field returns that field whatever follows the record.
-/

namespace YureiGeyser

open Positional

/-- The little-endian bytes of a 64-bit word. -/
def u64Bytes (word : UInt64) : List UInt8 :=
  (fixedBytes 8 word.toNat).reverse

/-- The little-endian bytes of a signed 64-bit word. -/
def i64Bytes (word : Int64) : List UInt8 :=
  u64Bytes word.toUInt64

/-- The little-endian 64-bit word at an offset. -/
def u64At (data : List UInt8) (offset : ℕ) : UInt64 :=
  UInt64.ofNat (bytesValue ((data.drop offset).take 8).reverse)

/-- The signed little-endian 64-bit word at an offset. -/
def i64At (data : List UInt8) (offset : ℕ) : Int64 :=
  (u64At data offset).toInt64

/-- The byte at an offset. -/
def u8At (data : List UInt8) (offset : ℕ) : UInt8 :=
  data.getD offset 0

@[simp] theorem u64Bytes_length (word : UInt64) : (u64Bytes word).length = 8 := by
  simp [u64Bytes]

@[simp] theorem i64Bytes_length (word : Int64) : (i64Bytes word).length = 8 :=
  u64Bytes_length word.toUInt64

theorem ofNat_bytesValue_u64Bytes (word : UInt64) :
    UInt64.ofNat (bytesValue (u64Bytes word).reverse) = word := by
  have bounded : word.toNat < 256 ^ 8 := word.toNat_lt
  rw [u64Bytes, List.reverse_reverse, bytesValue_fixedBytes, Nat.mod_eq_of_lt bounded,
    UInt64.ofNat_toNat]

/-- The bytes at the offset of a field are that field. -/
theorem slice_flatten {fields : List (List UInt8)} {index offset : ℕ} {field : List UInt8}
    (here : fields[index]? = some field) (before : (fields.take index).flatten.length = offset)
    (suffix : List UInt8) :
    ((fields.flatten ++ suffix).drop offset).take field.length = field := by
  obtain ⟨index_lt, rfl⟩ := List.getElem?_eq_some_iff.mp here
  have split : fields.flatten =
      (fields.take index).flatten ++ (fields[index] ++ (fields.drop (index + 1)).flatten) := by
    conv_lhs => rw [← List.take_append_drop index fields, List.drop_eq_getElem_cons index_lt]
    rw [List.flatten_append, List.flatten_cons]
  rw [split, List.append_assoc, List.append_assoc, List.drop_left' before, List.take_left]

section Reads

variable {fields : List (List UInt8)} {offset : ℕ} (index : ℕ)

theorem u64At_flatten {word : UInt64} (here : fields[index]? = some (u64Bytes word))
    (before : (fields.take index).flatten.length = offset) (suffix : List UInt8) :
    u64At (fields.flatten ++ suffix) offset = word := by
  have slice := slice_flatten here before suffix
  rw [u64Bytes_length] at slice
  rw [u64At, slice, ofNat_bytesValue_u64Bytes]

theorem i64At_flatten {word : Int64} (here : fields[index]? = some (i64Bytes word))
    (before : (fields.take index).flatten.length = offset) (suffix : List UInt8) :
    i64At (fields.flatten ++ suffix) offset = word := by
  rw [i64At, u64At_flatten index here before suffix, Int64.toInt64_toUInt64]

theorem u8At_flatten {byte : UInt8} (here : fields[index]? = some [byte])
    (before : (fields.take index).flatten.length = offset) (suffix : List UInt8) :
    u8At (fields.flatten ++ suffix) offset = byte := by
  have slice := slice_flatten here before suffix
  have head := congrArg (fun entries : List UInt8 => entries[0]?) slice
  rw [List.length_singleton, List.getElem?_take_of_lt (by decide), List.getElem?_drop] at head
  rw [u8At, List.getD_eq_getElem?_getD]
  simpa using congrArg (fun entry : Option UInt8 => entry.getD 0) head

theorem ofOffset_flatten {key : Pubkey} (here : fields[index]? = some key.bytes)
    (before : (fields.take index).flatten.length = offset) (suffix : List UInt8)
    (inside : offset + 32 ≤ (fields.flatten ++ suffix).length) :
    Pubkey.ofOffset (fields.flatten ++ suffix) offset inside = key := by
  have slice := slice_flatten here before suffix
  rw [key.width] at slice
  cases key
  simpa [Pubkey.ofOffset] using slice

end Reads

end YureiGeyser
