import CellC.Journal
import CellC.Machine.Stack
import CellC.Memory.Heap
import CellC.Machine.Input
import CellC.Machine.Printer

/-!
# The state of the machine

The machine is what a program runs on: a call stack, a heap, a source of integers, a printer and a
journal. `State` holds everything that changes while a program runs.
-/

namespace CellC

/-- Everything that changes while a program runs. -/
structure State where
  /-- The frames. -/
  stack : CallStack := {}
  /-- The memory. -/
  heap : Heap := {}
  /-- Where integers are read from. -/
  input : Input := .ofList []
  /-- Where lines are printed to. -/
  printer : Printer := {}
  /-- Whether the file-scope variables have been given their values. -/
  globalsReady : Bool := false
  /-- What happened so far, the oldest first. -/
  journal : Array Event := #[]

end CellC
