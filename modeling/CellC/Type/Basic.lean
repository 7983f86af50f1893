import CellC.Cell.Address

/-!
# Static types

A type is `int`, `char`, `void`, a pointer to a type or an array of a type. Its width is the number
of bytes that one object of the type fills, and its text names what a type is made of before what it
is made into.
-/

namespace CellC

/-- The structure of a type. -/
inductive CType
  | int
  | char
  | void
  | pointer (pointee : CType)
  | array (elem : CType) (len : UInt64)
deriving DecidableEq

namespace CType

/-- The number of bytes that one object of the type fills. Only `char` is narrower than a cell, and
the size of an array stays at the largest word when it would exceed it. -/
def width : CType → Nat
  | char => 1
  | array elem len => min maxWord (elem.width * len.toNat)
  | int | void | pointer _ => 8

/-- The text of a type: what a type is made of comes before what it is made into. -/
def text : CType → String
  | int => "int"
  | char => "char"
  | void => "void"
  | pointer pointee => pointee.text ++ "*"
  | array elem len => s!"{elem.text}[{len.toNat}]"

/-- Every width is a word. -/
theorem width_le_maxWord (type : CType) : type.width ≤ maxWord := by
  cases type with
  | array elem len => exact Nat.min_le_left _ _
  | int | char | void | pointer _ => simp [width, maxWord]

end CType

end CellC
