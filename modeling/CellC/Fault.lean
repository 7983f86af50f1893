import CellC.Program.Ident
import CellC.Text.Integer

/-!
# Faults

A fault is the one way in which a program can go wrong: it ends the whole run, and the program
cannot catch it. A fault names its cause; `Fault.message` is the wording shown to a user.
-/

namespace CellC

/-- Why a run was aborted. -/
inductive Fault
  /-- A quotient by zero. -/
  | divisionByZero
  /-- A variable without a binding that the active frame can see. -/
  | unbound (name : String)
  /-- A recorded value was asked for before the expression was evaluated. -/
  | notEvaluated (expr : ExprId)
  /-- An expression form that cannot be evaluated. -/
  | unsupportedExpr (form : String)
  /-- A statement form that cannot be executed. -/
  | unsupportedStmt (form : String)
  /-- An operator that is not implemented. -/
  | unsupportedOp (symbol : String)
  /-- An expression form that cannot stand on the left of an assignment. -/
  | notAssignable (form : String)
  /-- A `for` loop that has no condition. -/
  | forWithoutCondition
  /-- A call with the wrong number of arguments. -/
  | wrongArity (name : String) (expected got : Nat)
  /-- No function carries the name of the entry point. -/
  | noEntryPoint (name : String)
  /-- A called function has no body anywhere. -/
  | noBody (name : String)
  /-- A call beyond the permitted number of active calls. -/
  | tooDeep (limit : Nat)
  /-- An access that does not lie within one live block. -/
  | badAddress (address : Address)
  /-- A block size that is negative or too large. -/
  | badSize (size : Cell)
  /-- The file-scope frame was to be popped. -/
  | noCall
deriving DecidableEq

namespace Fault

/-- The noun for a number of arguments that a function expects. -/
def argumentWord (expected : Nat) : String := if expected = 1 then "argument" else "arguments"

/-- The wording of a fault. -/
def message : Fault → String
  | divisionByZero => "division by zero"
  | unbound name => s!"variable `{name}` is not bound in the active frame"
  | notEvaluated expr => s!"{expr.text} has not been evaluated in the active frame"
  | unsupportedExpr form => s!"unsupported expression: {form}"
  | unsupportedStmt form => s!"unsupported statement: {form}"
  | unsupportedOp symbol => s!"unsupported operator `{symbol}`"
  | notAssignable form => s!"cannot assign to {form}"
  | forWithoutCondition => "`for` statement without a condition"
  | wrongArity name expected got =>
    s!"{name} expects {expected} {argumentWord expected}, got {got}"
  | noEntryPoint name => s!"no `{name}` function to run"
  | noBody name => s!"function `{name}` is declared but never defined"
  | tooDeep limit => s!"call depth limit exceeded ({limit} frames)"
  | badAddress address => s!"access to unallocated address {address.text}"
  | badSize size => s!"cannot allocate {size.text} bytes"
  | noCall => "attempted to pop the file-scope frame"

end Fault

end CellC
