import Mathlib.Data.UInt
import YureiGeyser.Library.Positional

/-!
# Lists of tuples

Tuples of numbers and quoted texts are written as `(1,'a'),(2,'b')`.  The reader takes one byte
after the other, so that `List.foldlM_append` says what it makes of a concatenation.  A quote inside
a text is read when it is doubled; texts without quotes are written as they are.
-/

namespace Tuples

open Positional

/-- A component of a tuple. -/
inductive Field
  | number (value : ℕ)
  | text (bytes : List UInt8)
  deriving DecidableEq

/-- The decimals of a number. -/
def decimal (number : ℕ) : List UInt8 :=
  if number = 0 then [48] else (minimal 10 number).map fun digit => UInt8.ofNat (48 + digit)

/-- How a component is written. -/
def Field.print : Field → List UInt8
  | number value => decimal value
  | text bytes => 39 :: (bytes ++ [39])

/-- A component behind a comma. -/
def Field.printNext (field : Field) : List UInt8 :=
  44 :: field.print

/-- How a tuple is written. -/
def printRow : List Field → List UInt8
  | [] => [40, 41]
  | field :: fields => 40 :: (field.print ++ fields.flatMap Field.printNext ++ [41])

/-- A tuple behind a comma. -/
def printNextRow (row : List Field) : List UInt8 :=
  44 :: printRow row

/-- How a list of tuples is written. -/
def printRows : List (List Field) → List UInt8
  | [] => []
  | row :: rows => printRow row ++ rows.flatMap printNextRow

/-! ## The reader -/

/-- What the reader has seen last. -/
inductive Mode
  /-- Nothing of the next tuple. -/
  | row
  /-- Nothing of the next component. -/
  | field
  | number (value : ℕ)
  | text (bytes : List UInt8)
  /-- A quote inside a text or behind it. -/
  | quote (bytes : List UInt8)
  /-- The end of a tuple. -/
  | done
  deriving DecidableEq

/-- The tuples read so far and the components of the current one. -/
structure Reader where
  rows : List (List Field)
  fields : List Field
  mode : Mode

namespace Reader

/-- A component is followed by a comma or by the end of its tuple. -/
def close (reader : Reader) (field : Field) (byte : UInt8) : Option Reader :=
  if byte = 44 then some { reader with fields := reader.fields ++ [field], mode := .field }
  else if byte = 41 then
    some { rows := reader.rows ++ [reader.fields ++ [field]], fields := [], mode := .done }
  else none

/-- The byte is a decimal. -/
def isDecimal (byte : UInt8) : Bool :=
  48 ≤ byte.toNat && byte.toNat ≤ 57

/-- Take a byte. -/
def step (reader : Reader) (byte : UInt8) : Option Reader :=
  match reader.mode with
  | .row => if byte = 40 then some { reader with mode := .field } else none
  | .field =>
      if byte = 39 then some { reader with mode := .text [] }
      else if isDecimal byte then some { reader with mode := .number (byte.toNat - 48) }
      else none
  | .number value =>
      if isDecimal byte then some { reader with mode := .number (10 * value + (byte.toNat - 48)) }
      else reader.close (.number value) byte
  | .text bytes =>
      if byte = 39 then some { reader with mode := .quote bytes }
      else some { reader with mode := .text (bytes ++ [byte]) }
  | .quote bytes =>
      if byte = 39 then some { reader with mode := .text (bytes ++ [39]) }
      else reader.close (.text bytes) byte
  | .done => if byte = 44 then some { reader with mode := .row } else none

end Reader

/-- Read a list of tuples. -/
def read (input : List UInt8) : Option (List (List Field)) := do
  let reader ← input.foldlM Reader.step { rows := [], fields := [], mode := .row }
  if reader.mode = .done then some reader.rows else none

/-! ## Components -/

/-- The component has no quote in it. -/
def Field.Plain : Field → Prop
  | .number _ => True
  | .text bytes => 39 ∉ bytes

variable {rows : List (List Field)} {fields : List Field}

theorem foldlM_digits {digits : List ℕ} (bounded : ∀ digit ∈ digits, digit < 10) (start : ℕ) :
    (digits.map fun digit => UInt8.ofNat (48 + digit)).foldlM Reader.step
        { rows, fields, mode := .number start } =
      some { rows, fields, mode := .number (start * 10 ^ digits.length + value 10 digits) } := by
  induction digits generalizing start with
  | nil => simp
  | cons digit digits induction =>
      have small : digit < 10 := bounded digit List.mem_cons_self
      have byte : (UInt8.ofNat (48 + digit)).toNat = 48 + digit :=
        UInt8.toNat_ofNat_of_lt (show 48 + digit < 256 by omega)
      have decimal : Reader.isDecimal (UInt8.ofNat (48 + digit)) = true := by
        rw [Reader.isDecimal, byte]
        simp
        omega
      rw [List.map_cons, List.foldlM_cons, Reader.step]
      simp only [decimal, if_true, byte, Option.bind_eq_bind, Option.bind_some]
      rw [induction fun later member => bounded later (List.mem_cons_of_mem digit member)]
      rw [value_cons, List.length_cons, Nat.pow_succ]
      congr 3
      rw [Nat.add_sub_cancel_left]
      ring

theorem foldlM_decimal (number : ℕ) :
    (decimal number).foldlM Reader.step { rows, fields, mode := .field } =
      some { rows, fields, mode := .number number } := by
  by_cases zero : number = 0
  · subst zero
    rfl
  · rw [decimal, if_neg zero]
    have bounded : ∀ digit ∈ minimal 10 number, digit < 10 := minimal_lt (by norm_num)
    have spelled := value_minimal 10 number
    cases digits : minimal 10 number with
    | nil =>
        rw [digits] at spelled
        exact absurd spelled.symm zero
    | cons digit rest =>
        rw [digits] at bounded spelled
        have small : digit < 10 := bounded digit List.mem_cons_self
        have first : Reader.step { rows, fields, mode := .field } (UInt8.ofNat (48 + digit)) =
            some { rows, fields, mode := .number digit } := by
          interval_cases digit <;> rfl
        rw [List.map_cons, List.foldlM_cons, first]
        simp only [Option.bind_eq_bind, Option.bind_some]
        rw [foldlM_digits fun later member => bounded later (List.mem_cons_of_mem digit member),
          ← value_cons, spelled]

theorem foldlM_text {bytes : List UInt8} (plain : 39 ∉ bytes) (start : List UInt8) :
    bytes.foldlM Reader.step { rows, fields, mode := .text start } =
      some { rows, fields, mode := .text (start ++ bytes) } := by
  induction bytes generalizing start with
  | nil => rw [List.append_nil]; rfl
  | cons byte bytes induction =>
      have other : byte ≠ 39 := fun same => plain (same ▸ List.mem_cons_self)
      rw [List.foldlM_cons, Reader.step]
      simp only [if_neg other, Option.bind_eq_bind, Option.bind_some]
      rw [induction fun member => plain (List.mem_cons_of_mem byte member), List.append_assoc,
        List.singleton_append]

/-- A component is read when the byte behind it is known to be none of its own. -/
theorem foldlM_print {field : Field} (plain : field.Plain) {byte : UInt8}
    (ends : byte = 44 ∨ byte = 41) :
    (field.print ++ [byte]).foldlM Reader.step { rows, fields, mode := .field } =
      Reader.close { rows, fields, mode := .field } field byte := by
  rw [List.foldlM_append]
  cases field with
  | number value =>
      rw [Field.print, foldlM_decimal]
      rcases ends with rfl | rfl <;> rfl
  | text bytes =>
      have opened : Reader.step { rows, fields, mode := .field } 39 =
          some { rows, fields, mode := .text [] } := rfl
      rw [Field.print, List.foldlM_cons, opened]
      simp only [Option.bind_eq_bind, Option.bind_some]
      rw [List.foldlM_append, foldlM_text plain]
      rcases ends with rfl | rfl <;> rfl

/-! ## Tuples -/

theorem foldlM_fields {field : Field} (plain : field.Plain) {later : List Field}
    (all_plain : ∀ other ∈ later, other.Plain) :
    (field.print ++ later.flatMap Field.printNext ++ [41]).foldlM Reader.step
        { rows, fields, mode := .field } =
      some { rows := rows ++ [fields ++ field :: later], fields := [], mode := .done } := by
  induction later generalizing field fields with
  | nil =>
      rw [List.flatMap_nil, List.append_nil, foldlM_print plain (.inr rfl)]
      rfl
  | cons other later induction =>
      have split : field.print ++ (other :: later).flatMap Field.printNext ++ [41] =
          (field.print ++ [44]) ++ (other.print ++ later.flatMap Field.printNext ++ [41]) := by
        simp [Field.printNext]
      rw [split, List.foldlM_append, foldlM_print plain (.inl rfl)]
      have closed : Reader.close { rows, fields, mode := .field } field 44 =
          some { rows, fields := fields ++ [field], mode := .field } := rfl
      rw [closed]
      simp only [Option.bind_eq_bind, Option.bind_some]
      rw [induction (all_plain other List.mem_cons_self) fun third member =>
        all_plain third (List.mem_cons_of_mem other member)]
      simp

theorem foldlM_printRow {row : List Field} (nonempty : row ≠ [])
    (plain : ∀ field ∈ row, field.Plain) :
    (printRow row).foldlM Reader.step { rows, fields := [], mode := .row } =
      some { rows := rows ++ [row], fields := [], mode := .done } := by
  cases row with
  | nil => exact absurd rfl nonempty
  | cons field later =>
      have opened : Reader.step { rows, fields := [], mode := .row } 40 =
          some { rows, fields := [], mode := .field } := rfl
      rw [printRow, List.foldlM_cons, opened]
      simp only [Option.bind_eq_bind, Option.bind_some]
      rw [foldlM_fields (plain field List.mem_cons_self) fun other member =>
        plain other (List.mem_cons_of_mem field member)]
      rfl

theorem foldlM_printRows {later : List (List Field)} (nonempty : ∀ row ∈ later, row ≠ [])
    (plain : ∀ row ∈ later, ∀ field ∈ row, field.Plain) :
    (later.flatMap printNextRow).foldlM Reader.step
        { rows, fields := [], mode := .done } =
      some { rows := rows ++ later, fields := [], mode := .done } := by
  induction later generalizing rows with
  | nil =>
      rw [List.append_nil]
      rfl
  | cons row later induction =>
      have opened : Reader.step { rows, fields := [], mode := .done } 44 =
          some { rows, fields := [], mode := .row } := rfl
      rw [List.flatMap_cons, printNextRow, List.cons_append, List.foldlM_cons, opened]
      simp only [Option.bind_eq_bind, Option.bind_some]
      rw [List.foldlM_append,
        foldlM_printRow (nonempty row List.mem_cons_self) (plain row List.mem_cons_self)]
      simp only [Option.bind_eq_bind, Option.bind_some]
      rw [induction (fun other member => nonempty other (List.mem_cons_of_mem row member))
        fun other member => plain other (List.mem_cons_of_mem row member)]
      rw [List.append_assoc, List.singleton_append]

/-- What was written is read, as long as no text has a quote in it. -/
theorem read_printRows {rows : List (List Field)} (some_rows : rows ≠ [])
    (nonempty : ∀ row ∈ rows, row ≠ []) (plain : ∀ row ∈ rows, ∀ field ∈ row, field.Plain) :
    read (printRows rows) = some rows := by
  cases rows with
  | nil => exact absurd rfl some_rows
  | cons row later =>
      rw [read, printRows, List.foldlM_append,
        foldlM_printRow (nonempty row List.mem_cons_self) (plain row List.mem_cons_self)]
      simp only [Option.bind_eq_bind, Option.bind_some]
      rw [foldlM_printRows (fun other member => nonempty other (List.mem_cons_of_mem row member))
        fun other member => plain other (List.mem_cons_of_mem row member)]
      simp

/-- A list of tuples is never preceded by a comma. -/
theorem printRows_ne_cons (rows : List (List Field)) (text : List UInt8) :
    printRows rows ≠ 44 :: text := by
  cases rows with
  | nil => exact fun same => by cases same
  | cons row later =>
      cases row with
      | nil => exact fun same => by cases same
      | cons field fields => exact fun same => by cases same

end Tuples
