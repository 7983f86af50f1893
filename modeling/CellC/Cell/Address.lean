/-!
# Cells and addresses

Every value of the language fills one *cell*, a signed 64-bit word. An *address* is the same word
read without a sign, so that cells and addresses convert into each other without loss and address
arithmetic wraps around the 64-bit space.

## Main definitions

* `Cell`: a signed 64-bit word
* `Address`: an unsigned 64-bit word that names a byte of memory
* `Address.ofCell`, `Address.toCell`: the two's complement conversions, inverse to each other
* `Address.offset`: the address some signed number of bytes away
-/

namespace CellC

/-- A signed 64-bit word, the storage of every value. -/
abbrev Cell := Int64

/-- The largest unsigned 64-bit word; sizes and positions that would exceed it stay there. -/
def maxWord : Nat := 0xffffffffffffffff

/-- The lower-case hexadecimal digits of a number, after `0x`. -/
def hexText (n : Nat) : String := "0x" ++ String.ofList (Nat.toDigits 16 n)

/-- The name of a byte of memory. -/
structure Address where
  /-- The address as an unsigned word. -/
  raw : UInt64
deriving DecidableEq, Inhabited

namespace Address

/-- The address at which no block lives. -/
def null : Address := ⟨0⟩

/-- The address whose bits are those of `cell`. -/
def ofCell (cell : Cell) : Address := ⟨cell.toUInt64⟩

/-- The cell whose bits are those of `address`. -/
def toCell (address : Address) : Cell := address.raw.toInt64

/-- The address with the given position; a position beyond the address space wraps around. -/
def ofNat (n : Nat) : Address := ⟨UInt64.ofNat n⟩

/-- The position of an address in the address space. -/
def toNat (address : Address) : Nat := address.raw.toNat

/-- The address `bytes` away, wrapping around the address space. -/
def offset (address : Address) (bytes : Cell) : Address := ⟨address.raw + bytes.toUInt64⟩

/-- The hexadecimal text of an address. -/
def text (address : Address) : String := hexText address.toNat

@[simp] theorem ofCell_toCell (address : Address) : ofCell address.toCell = address := by
  simp [ofCell, toCell]

@[simp] theorem toCell_ofCell (cell : Cell) : (ofCell cell).toCell = cell := by
  simp [ofCell, toCell]

@[simp] theorem offset_zero (address : Address) : address.offset 0 = address := by
  simp [offset, show (0 : Cell).toUInt64 = 0 from rfl]

theorem toNat_le_maxWord (address : Address) : address.toNat ≤ maxWord :=
  Nat.le_of_lt_succ address.raw.toNat_lt

theorem toNat_ofNat_of_le {n : Nat} (h : n ≤ maxWord) : (ofNat n).toNat = n :=
  UInt64.toNat_ofNat'.trans (Nat.mod_eq_of_lt (Nat.lt_succ_of_le h))

/-- Stepping by `offset` is addition of cells. -/
theorem toCell_offset (address : Address) (bytes : Cell) :
    (address.offset bytes).toCell = address.toCell + bytes := by
  apply Int64.toBitVec_inj.1
  simp [offset, toCell]

end Address

end CellC
