import CellC.Machine.State

/-!
# Actions of the machine

An action is a computation on the machine. It yields a result or halts, and leaves a state behind in
both cases. The actions of this module are the steps from which the meaning of programs is put
together; each of them that changes the frames or the heap also writes to the journal.

## Main definitions

* `Halt`: why an action stopped without a result
* `Action`: a computation on the machine
* `Action.allocate`, `Action.release`, `Action.load`, `Action.store`: memory
* `Action.pushFrame`, `Action.popFrame`: activations
* `Action.readInteger`, `Action.println`: input and output
-/

namespace CellC

/-- Why an action stopped without a result. -/
inductive Halt
  /-- The program went wrong. -/
  | fault (fault : Fault)
  /-- A node refers to a node or declaration that the program does not have. -/
  | dangling
  /-- The rules would have to be nested more deeply than permitted. -/
  | exhausted
deriving DecidableEq

/-- A computation on the machine. -/
abbrev Action := EStateM Halt State

namespace Action

/-- Halts because the program went wrong. -/
def fail {α : Type} (fault : Fault) : Action α := throw (.fault fault)

/-- The given node or declaration, which has to exist. -/
@[inline] def ofOption {α : Type} : Option α → Action α
  | some a => pure a
  | none => throw .dangling

/-- The given result, or a halt with the given fault. -/
@[inline] def ofExcept {α : Type} : Except Fault α → Action α
  | .ok a => pure a
  | .error fault => fail fault

/-- Adds an event to the journal. -/
def emit (event : Event) : Action Unit :=
  modify fun state => { state with journal := state.journal.push event }

/-- Changes the frame of the innermost activation. -/
@[inline] def modifyTop (f : Frame → Frame) : Action Unit :=
  modify fun state => { state with stack := state.stack.modifyTop f }

/-- Changes the file-scope frame. -/
@[inline] def modifyRoot (f : Frame → Frame) : Action Unit :=
  modify fun state => { state with stack := state.stack.modifyRoot f }

/-- Binds a variable in the innermost activation. -/
def bind (var : VarId) (value : Value) : Action Unit := modifyTop (·.bind var value)

/-- Records the value of an expression in the innermost activation. -/
def record (expr : ExprId) (value : Value) : Action Unit := modifyTop (·.record expr value)

/-- Makes a block of memory and yields its address. -/
def allocate (size : Cell) (purpose : Purpose) : Action Address := do
  let (base, heap) ← ofExcept ((← get).heap.allocate size purpose)
  modify fun state => { state with heap }
  emit (.allocate base size.toInt.toNat purpose)
  pure base

/-- Ends the block that starts at an address, if there is one, and yields what it was made for. -/
def release (address : Address) : Action (Option Purpose) := do
  match (← get).heap.release address with
  | (some block, heap) =>
    modify fun state => { state with heap }
    emit (.release address block.size)
    pure (some block.purpose)
  | (none, _) =>
    emit (.releaseMissing address)
    pure none

/-- The cell that `width` bytes at an address stand for. -/
def load (address : Address) (width : Nat) : Action Cell := do
  ofExcept ((← get).heap.load address width)

/-- Writes the `width` low bytes of a cell at an address. -/
def store (address : Address) (width : Nat) (cell : Cell) : Action Unit := do
  let width := Heap.accessWidth width
  -- The block itself is let go of, so that the heap has a single owner when it changes.
  let (base, start) ← ofExcept <|
    ((← get).heap.find address width).map fun (block, start) => (block.base, start)
  modify fun state => { state with heap := state.heap.write base start (cell.toBytes width) }

/-- Storing on the machine is storing on its heap. -/
theorem run_store (address : Address) (width : Nat) (cell : Cell) (state : State) :
    (store address width cell).run state =
      match state.heap.store address width cell with
      | .ok heap => .ok () { state with heap }
      | .error fault => .error (.fault fault) state := by
  cases found : state.heap.find address (Heap.accessWidth width) with
  | error fault =>
    simp only [store, Heap.store, EStateM.run_bind, EStateM.run_get, found]
    rfl
  | ok place =>
    simp only [store, Heap.store_of_find found, EStateM.run_bind, EStateM.run_get, found]
    rfl

/-- Pushes an empty frame. -/
def pushFrame : Action Unit := do
  modify fun state => { state with stack := state.stack.push }
  emit (.push (← get).stack.depth)

/-- Ends the blocks at the given addresses. -/
def releaseAll : List Address → Action Unit
  | [] => pure ()
  | base :: bases => do
    discard <| release base
    releaseAll bases

/-- Pops the innermost frame, ends the arrays that belong to it, and yields its value to return. -/
def popFrame : Action Value := do
  match (← get).stack.pop? with
  | none => fail .noCall
  | some (frame, stack) =>
    modify fun state => { state with stack }
    releaseAll frame.arrays
    emit (.pop (← get).stack.depth frame.ret)
    pure frame.ret

/-- Prints a line. -/
def println (line : String) : Action Unit :=
  modify fun state => { state with printer := state.printer.println line }

/-- Reads an integer, if there is one to be had. -/
def readInteger : Action (Option Cell) := do
  let reading ← modifyGet fun state =>
    let (reading, input) := state.input.read
    (reading, { state with input })
  match reading with
  | .value n => pure (some n)
  | .malformed word error =>
    emit (.malformedInput word error)
    pure none
  | .unavailable => pure none

end Action

end CellC
