import CellC.Fault

/-!
# Operators on cells

The binary and unary operators of the language with their symbols, and the value of an operator on
cells. Arithmetic is that of 64-bit two's complement words: it wraps, and division truncates toward
zero. Comparisons yield 1 or 0. Some operators can be written but are not implemented; applying one
is a fault.

## Main definitions

* `BinaryOp.apply`, `UnaryOp.apply`: the value of an operator on cells
* `BinaryOp.supported`: whether a binary operator is implemented at all
-/

namespace CellC

/-- A binary operator; assignment counts as one. -/
inductive BinaryOp
  | assign
  | add | sub | mul | div | rem
  | lt | gt | le | ge | eq | ne
  | bitAnd | bitOr
  | logicalAnd | logicalOr
deriving DecidableEq

/-- A unary operator. -/
inductive UnaryOp
  | neg | plus | bitNot | not | deref | addrOf
deriving DecidableEq

/-- The cell of a truth value. -/
def cellOfBool (b : Bool) : Cell := if b then 1 else 0

namespace BinaryOp

/-- The symbol of a binary operator. -/
def symbol : BinaryOp → String
  | assign => "="
  | add => "+"
  | sub => "-"
  | mul => "*"
  | div => "/"
  | rem => "%"
  | lt => "<"
  | gt => ">"
  | le => "<="
  | ge => ">="
  | eq => "=="
  | ne => "!="
  | bitAnd => "&"
  | bitOr => "|"
  | logicalAnd => "&&"
  | logicalOr => "||"

/-- All binary operators. -/
def all : List BinaryOp :=
  [assign, add, sub, mul, div, rem, lt, gt, le, ge, eq, ne, bitAnd, bitOr, logicalAnd,
    logicalOr]

/-- The binary operator with the given symbol. -/
def ofSymbol? (symbol : String) : Option BinaryOp := all.find? (·.symbol == symbol)

/-- Whether the operator compares its operands. -/
def compares : BinaryOp → Bool
  | lt | gt | le | ge | eq | ne => true
  | _ => false

/-- Whether the operator is assignment. -/
def assigns : BinaryOp → Bool
  | assign => true
  | _ => false

/-- Whether the operator is implemented. -/
def supported : BinaryOp → Bool
  | assign | add | sub | mul | div | lt | gt | le | ge | eq | ne => true
  | rem | bitAnd | bitOr | logicalAnd | logicalOr => false

/-- The value of a binary operator other than assignment. -/
def apply (op : BinaryOp) (a b : Cell) : Except Fault Cell :=
  match op with
  | add => .ok (a + b)
  | sub => .ok (a - b)
  | mul => .ok (a * b)
  | div => if b = 0 then .error .divisionByZero else .ok (a / b)
  | lt => .ok (cellOfBool (a < b))
  | gt => .ok (cellOfBool (b < a))
  | le => .ok (cellOfBool (a ≤ b))
  | ge => .ok (cellOfBool (b ≤ a))
  | eq => .ok (cellOfBool (a = b))
  | ne => .ok (cellOfBool (a ≠ b))
  | assign | rem | bitAnd | bitOr | logicalAnd | logicalOr => .error (.unsupportedOp op.symbol)

end BinaryOp

namespace UnaryOp

/-- The symbol of a unary operator. -/
def symbol : UnaryOp → String
  | neg => "-"
  | plus => "+"
  | bitNot => "~"
  | not => "!"
  | deref => "*"
  | addrOf => "&"

/-- All unary operators. -/
def all : List UnaryOp := [neg, plus, bitNot, not, deref, addrOf]

/-- The unary operator with the given symbol. -/
def ofSymbol? (symbol : String) : Option UnaryOp := all.find? (·.symbol == symbol)

/-- The value of a unary operator that looks only at its operand's cell. -/
def apply (op : UnaryOp) (a : Cell) : Except Fault Cell :=
  match op with
  | neg => .ok (-a)
  | plus => .ok a
  | bitNot => .ok (~~~a)
  | not => .ok (cellOfBool (a = 0))
  | deref | addrOf => .error (.unsupportedOp op.symbol)

end UnaryOp

end CellC
