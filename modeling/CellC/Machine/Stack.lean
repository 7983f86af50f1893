import Std.Data.TreeMap.Lemmas
import CellC.Fault
import CellC.Cell.Value

/-!
# Frames and the call stack

A frame is the record of one activation of a function: the values bound to its variables, the value
last computed for each expression, the value to return, and the arrays that its declarations made.
Frames belong to calls and not to blocks of statements. The bottom frame holds the file-scope
variables and is never popped.

## Main definitions

* `Frame`: the record of one activation
* `CallStack`: the file-scope frame and the frames of the active calls
* `CallStack.top`, `CallStack.modifyTop`: the frame of the innermost activation
-/

namespace CellC

/-- The record of one activation. -/
structure Frame where
  /-- The values of variables, by number. -/
  vars : Std.TreeMap Nat Value := {}
  /-- The values last computed for expressions, by number. -/
  results : Std.TreeMap Nat Value := {}
  /-- The value to return. -/
  ret : Value := .zero
  /-- The addresses of the arrays that declarations made, in order. -/
  arrays : List Address := []

namespace Frame

/-- The value bound to a variable. -/
def value? (frame : Frame) (var : VarId) : Option Value := frame.vars[var.index]?

/-- Whether a variable is bound. -/
def binds (frame : Frame) (var : VarId) : Bool := frame.vars.contains var.index

/-- Binds a variable to a value, in place of an earlier one. -/
def bind (frame : Frame) (var : VarId) (value : Value) : Frame :=
  { frame with vars := frame.vars.insert var.index value }

/-- The value bound to a variable, which has to be there. -/
def value (frame : Frame) (var : VarId) : Except Fault Value :=
  match frame.value? var with
  | some value => .ok value
  | none => .error (.unbound var.text)

/-- The value last computed for an expression. -/
def recorded (frame : Frame) (expr : ExprId) : Option Value := frame.results[expr.index]?

/-- Records the value computed for an expression, in place of an earlier one. -/
def record (frame : Frame) (expr : ExprId) (value : Value) : Frame :=
  { frame with results := frame.results.insert expr.index value }

/-- The value last computed for an expression, which has to be there. -/
def recordedValue (frame : Frame) (expr : ExprId) : Except Fault Value :=
  match frame.recorded expr with
  | some value => .ok value
  | none => .error (.notEvaluated expr)

/-- Sets the value to return. -/
def returning (frame : Frame) (value : Value) : Frame := { frame with ret := value }

/-- Records that the array at `base` belongs to the frame. -/
def adopt (frame : Frame) (base : Address) : Frame :=
  { frame with arrays := frame.arrays ++ [base] }

theorem binds_eq_isSome (frame : Frame) (var : VarId) :
    frame.binds var = (frame.value? var).isSome :=
  Std.TreeMap.contains_eq_isSome_getElem?

/-- Binding a variable changes the value of that variable alone. -/
theorem value?_bind (frame : Frame) (var other : VarId) (value : Value) :
    (frame.bind var value).value? other =
      if var = other then some value else frame.value? other := by
  obtain ⟨i⟩ := var
  obtain ⟨j⟩ := other
  simp [bind, value?, Std.TreeMap.getElem?_insert]

/-- Recording a value changes what is recorded for that expression alone. -/
theorem recorded_record (frame : Frame) (expr other : ExprId) (value : Value) :
    (frame.record expr value).recorded other =
      if expr = other then some value else frame.recorded other := by
  obtain ⟨i⟩ := expr
  obtain ⟨j⟩ := other
  simp [record, recorded, Std.TreeMap.getElem?_insert]

@[simp] theorem recorded_bind (frame : Frame) (var : VarId) (value : Value) (expr : ExprId) :
    (frame.bind var value).recorded expr = frame.recorded expr := rfl

@[simp] theorem value?_record (frame : Frame) (expr : ExprId) (value : Value) (var : VarId) :
    (frame.record expr value).value? var = frame.value? var := rfl

end Frame

/-- The file-scope frame and the frames of the active calls. -/
structure CallStack where
  /-- The file-scope frame. -/
  root : Frame := {}
  /-- The frames of the active calls, the innermost first. -/
  calls : List Frame := []

namespace CallStack

/-- The number of frames, the file-scope frame included. -/
def depth (stack : CallStack) : Nat := stack.calls.length + 1

/-- The frame of the innermost activation. -/
def top (stack : CallStack) : Frame := stack.calls.headD stack.root

/-- Changes the frame of the innermost activation. -/
def modifyTop (f : Frame → Frame) (stack : CallStack) : CallStack :=
  match stack with
  | ⟨root, []⟩ => ⟨f root, []⟩
  | ⟨root, frame :: calls⟩ => ⟨root, f frame :: calls⟩

/-- Changes the file-scope frame. -/
def modifyRoot (f : Frame → Frame) (stack : CallStack) : CallStack :=
  { stack with root := f stack.root }

/-- The stack with an empty frame for a new activation. -/
def push (stack : CallStack) : CallStack := { stack with calls := {} :: stack.calls }

/-- The innermost frame and the stack without it; the file-scope frame stays. -/
def pop? (stack : CallStack) : Option (Frame × CallStack) :=
  match stack.calls with
  | [] => none
  | frame :: calls => some (frame, { stack with calls })

@[simp] theorem top_modifyTop (f : Frame → Frame) (stack : CallStack) :
    (stack.modifyTop f).top = f stack.top := by
  obtain ⟨root, _ | ⟨frame, calls⟩⟩ := stack <;> rfl

@[simp] theorem depth_modifyTop (f : Frame → Frame) (stack : CallStack) :
    (stack.modifyTop f).depth = stack.depth := by
  obtain ⟨root, _ | ⟨frame, calls⟩⟩ := stack <;> rfl

@[simp] theorem depth_push (stack : CallStack) : stack.push.depth = stack.depth + 1 := rfl

@[simp] theorem pop?_push (stack : CallStack) : stack.push.pop? = some ({}, stack) := rfl

end CallStack

end CellC
