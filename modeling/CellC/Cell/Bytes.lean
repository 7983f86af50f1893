import CellC.Cell.Address

/-!
# Cells as bytes

A cell is stored as bytes with the low end first. Fewer than eight bytes hold the low end of a cell,
and reading them back extends the sign.

## Main definitions

* `byteRange`: how many numbers a count of bytes can stand for
* `bytesOfNat`, `natOfBytes`: numbers as bytes of a given count
* `Cell.toBytes`, `Cell.ofBytes`: cells as bytes, and back with the sign

## Main results

* `natOfBytes_bytesOfNat`: the bytes of a number stand for the number modulo their range
* `natOfBytes_lt`: the number that bytes stand for is within their range
-/

namespace CellC

/-- How many numbers `width` bytes can stand for. -/
def byteRange : Nat → Nat
  | 0 => 1
  | width + 1 => 256 * byteRange width

/-- The `width` low bytes of a number, the lowest first. -/
def bytesOfNat : Nat → Nat → List UInt8
  | 0, _ => []
  | width + 1, n => UInt8.ofNat n :: bytesOfNat width (n / 256)

/-- The number that bytes stand for, the lowest first. -/
def natOfBytes : List UInt8 → Nat
  | [] => 0
  | byte :: bytes => byte.toNat + 256 * natOfBytes bytes

/-- The `width` low bytes of a cell. -/
def Cell.toBytes (cell : Cell) (width : Nat) : List UInt8 := bytesOfNat width cell.toUInt64.toNat

/-- The cell that bytes stand for when the highest bit is a sign. -/
def Cell.ofBytes (bytes : List UInt8) : Cell :=
  Int64.ofInt ((natOfBytes bytes : Int).bmod (byteRange bytes.length))

@[simp] theorem length_bytesOfNat (width n : Nat) : (bytesOfNat width n).length = width := by
  induction width generalizing n with
  | zero => rfl
  | succ width ih => simp [bytesOfNat, ih]

theorem natOfBytes_bytesOfNat (width n : Nat) :
    natOfBytes (bytesOfNat width n) = n % byteRange width := by
  induction width generalizing n with
  | zero => simp [bytesOfNat, natOfBytes, byteRange, Nat.mod_one]
  | succ width ih =>
    simp only [bytesOfNat, natOfBytes, byteRange, ih, UInt8.toNat_ofNat']
    exact (Nat.mod_mul).symm

theorem natOfBytes_lt (bytes : List UInt8) : natOfBytes bytes < byteRange bytes.length := by
  induction bytes with
  | nil => simp [natOfBytes, byteRange]
  | cons byte bytes ih =>
    have hbyte := byte.toNat_lt
    simp only [natOfBytes, byteRange, List.length_cons]
    omega

@[simp] theorem Cell.length_toBytes (cell : Cell) (width : Nat) :
    (Cell.toBytes cell width).length = width :=
  length_bytesOfNat _ _

end CellC
