import CellC.Text.Integer
import CellC.Type.Table

/-!
# Values

A value is one cell with a tag that records what produced it. The tag never decides anything: which
value a cell denotes follows from the static type at which it is read, and `Value.ofCell` is the
only place where that happens.

## Main definitions

* `Value.cell`: the cell of a value
* `Value.ofCell`: the value that a cell denotes at a type
-/

namespace CellC

/-- A cell, tagged with what produced it. -/
inductive Value
  /-- A number. -/
  | int (cell : Cell)
  /-- A character, a signed byte. -/
  | char (byte : Int8)
  /-- A pointer. -/
  | pointer (address : Address)
  /-- An array, which stands for the address of its first byte. -/
  | array (base : Address)
deriving DecidableEq

namespace Value

/-- The value that fresh storage holds. -/
def zero : Value := .int 0

instance : Inhabited Value := ⟨zero⟩

/-- The cell of a value; a character is sign-extended. -/
def cell : Value → Cell
  | int n => n
  | char c => c.toInt64
  | pointer address | array address => address.toCell

/-- The value that a cell denotes at a type with the given outermost layer. At `char` only the low
byte counts. -/
def ofCell (layer : TypeLayer) (cell : Cell) : Value :=
  match layer with
  | .char => .char cell.toInt8
  | .pointer _ => .pointer (.ofCell cell)
  | .array _ _ => .array (.ofCell cell)
  | .int | .void => .int cell

/-- The cell of a value as an address. -/
def address (value : Value) : Address := .ofCell value.cell

/-- Whether a value counts as true in a condition. -/
def isTrue (value : Value) : Bool := value.cell ≠ 0

/-- The text of a value: numbers and characters in decimal, addresses in hexadecimal. -/
def text : Value → String
  | int n => decimalText n.toInt
  | char c => decimalText c.toInt
  | pointer address | array address => address.text

@[simp] theorem cell_zero : zero.cell = 0 := rfl

/-- Reading a value's own cell at the type at which it was read changes nothing. -/
theorem ofCell_cell_ofCell (layer : TypeLayer) (cell : Cell) :
    ofCell layer (ofCell layer cell).cell = ofCell layer cell := by
  cases layer <;> simp [ofCell, Value.cell]

end Value

/-- The value that a cell denotes at a type. -/
def TypeTable.view (table : TypeTable) (type : TypeId) (cell : Cell) : Value :=
  .ofCell (table.layer type) cell

/-- The largest cell, which stands for every stride that does not fit a cell. -/
def maxCell : Nat := 0x7fffffffffffffff

/-- The number of bytes between neighbouring objects of a type, as a cell. -/
def TypeTable.stride (table : TypeTable) (type : TypeId) : Cell :=
  Int64.ofNat (min maxCell (table.width type))

end CellC
