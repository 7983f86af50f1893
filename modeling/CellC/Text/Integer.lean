import CellC.Cell.Address

/-!
# Integers as text

Integers are written in decimal with a minus sign in front of negative ones. They are read back with
an optional sign, ASCII digits only, and within the range of a cell. A text that is no integer is
refused at the first character that makes it one: a character that is not a digit, or a digit with
which the number leaves the range.

## Main definitions

* `decimal`, `decimalText`: the decimal text of an integer
* `readInteger`: the cell that a text denotes
-/

namespace CellC

/-- The decimal digits of an integer, after a minus sign if it is negative. -/
def decimal (n : Int) : List Char :=
  if n < 0 then '-' :: Nat.toDigits 10 n.natAbs else Nat.toDigits 10 n.natAbs

/-- The decimal text of an integer. -/
def decimalText (n : Int) : String := String.ofList (decimal n)

/-- The decimal text of a cell. -/
def Cell.text (cell : Cell) : String := decimalText cell.toInt

/-- Why a text is not an integer that fits a cell. -/
inductive IntegerError
  | empty
  | invalidDigit
  | tooLarge
  | tooSmall
deriving DecidableEq

/-- The wording of a failure to read an integer. -/
def IntegerError.message : IntegerError → String
  | empty => "cannot parse integer from empty string"
  | invalidDigit => "invalid digit found in string"
  | tooLarge => "number too large to fit in target type"
  | tooSmall => "number too small to fit in target type"

/-- The least integer that fits a cell. -/
def minInteger : Int := -0x8000000000000000

/-- The greatest integer that fits a cell. -/
def maxInteger : Int := 0x7fffffffffffffff

/-- The value of a decimal digit. -/
def digitValue? (c : Char) : Option Nat :=
  if '0' ≤ c ∧ c ≤ '9' then some (c.toNat - '0'.toNat) else none

/-- The integer that continues `value` by digits, each of which counts `sign` times its value. -/
def readDigits (sign value : Int) : List Char → Except IntegerError Int
  | [] => .ok value
  | c :: cs =>
    match digitValue? c with
    | none => .error .invalidDigit
    | some digit =>
      -- The range is tested at each digit, so a text may be refused before its first bad character.
      let next := value * 10 + sign * digit
      if maxInteger < next then .error .tooLarge
      else if next < minInteger then .error .tooSmall
      else readDigits sign next cs

/-- The integer that an optional sign and digits denote. -/
def readSigned : List Char → Except IntegerError Int
  | [] => .error .empty
  -- A sign alone lacks a digit, but it is not an empty text.
  | ['-'] | ['+'] => .error .invalidDigit
  | '-' :: digits => readDigits (-1) 0 digits
  | '+' :: digits => readDigits 1 0 digits
  | digits => readDigits 1 0 digits

/-- The cell that a text denotes. -/
def readInteger (text : String) : Except IntegerError Cell :=
  (readSigned text.toList).map Int64.ofInt

end CellC
