import CellC.Interner
import CellC.Type.Basic

/-!
# Type tables

A program stores each of its types once, in a table, and refers to it by number. The table holds the
outermost layer of a type, which refers to the type below it by number again. Putting the layers
together gives the structure of a type, from which its width and its text follow.

## Main definitions

* `TypeTable`: the types of a program by number, and `TypeTable.intern` that adds one
* `TypeTable.resolve`: the structure of the type with a given number
* `TypeTable.width`, `TypeTable.text`: its width and its text
-/

namespace CellC

/-- The number of a type in a table. -/
structure TypeId where
  /-- The position in the table. -/
  index : Nat
deriving DecidableEq, Inhabited

namespace TypeId

/-- The number of `int` in every table. -/
def int : TypeId := ⟨0⟩

/-- The number of `char` in every table. -/
def char : TypeId := ⟨1⟩

/-- The number of `void` in every table. -/
def void : TypeId := ⟨2⟩

/-- How diagnostics write the number of a type. -/
def text (id : TypeId) : String :=
  if id = int then "TypeId::INT"
  else if id = char then "TypeId::CHAR"
  else if id = void then "TypeId::VOID"
  else s!"TypeId({id.index})"

end TypeId

/-- The outermost layer of a type; the type below it is referred to by number. -/
inductive TypeLayer
  | int
  | char
  | void
  | pointer (pointee : TypeId)
  | array (elem : TypeId) (len : UInt64)
deriving DecidableEq

/-- The types of a program. -/
structure TypeTable where
  /-- The layers by number. -/
  layers : Interner TypeLayer := ⟨#[.int, .char, .void]⟩
deriving DecidableEq

namespace TypeTable

/-- The number of the type with the given outermost layer, which is stored first if it is new. -/
def intern (table : TypeTable) (layer : TypeLayer) : TypeId × TypeTable :=
  let (index, layers) := table.layers.intern layer
  (⟨index⟩, ⟨layers⟩)

/-- The outermost layer of a type; a number that was not handed out stands for `int`. -/
def layer (table : TypeTable) (id : TypeId) : TypeLayer := (table.layers.get? id.index).getD .int

/-- Whether a type is an array type. -/
def isArray (table : TypeTable) (id : TypeId) : Bool :=
  match table.layer id with
  | .array _ _ => true
  | _ => false

/-- The element type of an array type or the type that a pointer type points to. -/
def element? (table : TypeTable) (id : TypeId) : Option TypeId :=
  match table.layer id with
  | .pointer elem | .array elem _ => some elem
  | .int | .char | .void => none

/-- The structure of a type down to the given number of layers, below which it is `int`. -/
def resolveWithin (table : TypeTable) : Nat → TypeId → CType
  | 0, _ => .int
  | layers + 1, id =>
    match table.layer id with
    | .int => .int
    | .char => .char
    | .void => .void
    | .pointer pointee => .pointer (table.resolveWithin layers pointee)
    | .array elem len => .array (table.resolveWithin layers elem) len

/-- The structure of a type. No type contains itself, so a chain of layers is no longer than the
table, and the number of an unknown type may end it. -/
def resolve (table : TypeTable) (id : TypeId) : CType :=
  table.resolveWithin (table.layers.size + 1) id

/-- The number of bytes that one object of a type fills. -/
def width (table : TypeTable) (id : TypeId) : Nat := (table.resolve id).width

/-- The text of a type. -/
def text (table : TypeTable) (id : TypeId) : String := (table.resolve id).text

theorem layer_intern_self (table : TypeTable) (layer : TypeLayer) :
    (table.intern layer).2.layer (table.intern layer).1 = layer := by
  simp [intern, TypeTable.layer, Interner.get?_intern_self]

theorem isArray_iff {table : TypeTable} {id : TypeId} :
    table.isArray id = true ↔ ∃ elem len, table.layer id = .array elem len := by
  unfold isArray
  split <;> simp_all

end TypeTable

end CellC
