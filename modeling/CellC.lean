import CellC.Cell.Address
import CellC.Cell.Bytes
import CellC.Cell.Operator
import CellC.Cell.Value
import CellC.Fault
import CellC.Interner
import CellC.Interpreter
import CellC.Journal
import CellC.Machine.Action
import CellC.Machine.Input
import CellC.Machine.Printer
import CellC.Machine.Stack
import CellC.Machine.State
import CellC.Memory.Heap
import CellC.Program.Basic
import CellC.Program.Builder
import CellC.Program.Construction
import CellC.Program.Ident
import CellC.Program.Names
import CellC.Program.Setup
import CellC.Proofs.Agreement
import CellC.Proofs.Arrays.Course
import CellC.Proofs.Arrays.Elements
import CellC.Proofs.Assignments
import CellC.Proofs.Blindness
import CellC.Proofs.Building
import CellC.Proofs.Building.Consistency
import CellC.Proofs.Building.Intact
import CellC.Proofs.Building.Keeping
import CellC.Proofs.Building.Listing
import CellC.Proofs.Building.Numbering
import CellC.Proofs.Building.Orderly
import CellC.Proofs.Building.References
import CellC.Proofs.Building.Unwrapping
import CellC.Proofs.CallOrder
import CellC.Proofs.Channels
import CellC.Proofs.Confinement
import CellC.Proofs.ConstantArithmetic
import CellC.Proofs.Correspondence
import CellC.Proofs.Cutoff
import CellC.Proofs.DanglingPointers
import CellC.Proofs.DepthLimit
import CellC.Proofs.Derivations
import CellC.Proofs.Differences
import CellC.Proofs.EvaluationOrder
import CellC.Proofs.Factorial
import CellC.Proofs.FatalFaults
import CellC.Proofs.FileScope.Initialization
import CellC.Proofs.FileScope.Steady
import CellC.Proofs.Heap.Access
import CellC.Proofs.Heap.Checked
import CellC.Proofs.Heap.Dead
import CellC.Proofs.Heap.FlatMemory
import CellC.Proofs.Heap.Freshness
import CellC.Proofs.Heap.Gaps
import CellC.Proofs.Heap.Layout
import CellC.Proofs.Heap.Order
import CellC.Proofs.Heap.Storing
import CellC.Proofs.Input.Feeding
import CellC.Proofs.Input.Lines
import CellC.Proofs.Input.Numerals
import CellC.Proofs.Input.ReadBack
import CellC.Proofs.Input.Sources
import CellC.Proofs.Interning.Indexed
import CellC.Proofs.Interning.Names
import CellC.Proofs.Interning.Sequences
import CellC.Proofs.Interning.Types
import CellC.Proofs.Isolation
import CellC.Proofs.Journal.Brackets
import CellC.Proofs.Journal.Replay
import CellC.Proofs.Levels
import CellC.Proofs.Loops
import CellC.Proofs.Nesting
import CellC.Proofs.Operations
import CellC.Proofs.Output.Discretion
import CellC.Proofs.Output.Lines
import CellC.Proofs.Output.Prints
import CellC.Proofs.Output.Prompts
import CellC.Proofs.Ownership.Invariant
import CellC.Proofs.Ownership.Ledger
import CellC.Proofs.Parentheses
import CellC.Proofs.Parts
import CellC.Proofs.Places
import CellC.Proofs.PointerArithmetic
import CellC.Proofs.RecordedValues
import CellC.Proofs.Recording
import CellC.Proofs.Related
import CellC.Proofs.Repetition
import CellC.Proofs.Replies
import CellC.Proofs.Resemblance
import CellC.Proofs.Resolution
import CellC.Proofs.ReturnValue
import CellC.Proofs.Returns
import CellC.Proofs.Safety.Footprint
import CellC.Proofs.Safety.Halts
import CellC.Proofs.Safety.Lookups
import CellC.Proofs.Safety.Traps
import CellC.Proofs.Scripts
import CellC.Proofs.Sessions
import CellC.Proofs.StackDiscipline
import CellC.Proofs.Steps
import CellC.Proofs.Subscripts
import CellC.Proofs.Termination
import CellC.Proofs.Typing.Known
import CellC.Proofs.Typing.Layers
import CellC.Proofs.Typing.NestedTypes
import CellC.Proofs.Typing.Preservation
import CellC.Proofs.Typing.State
import CellC.Proofs.Typing.Static
import CellC.Proofs.Typing.Sums
import CellC.Proofs.Typing.Texts
import CellC.Proofs.Typing.Widths
import CellC.Proofs.Unwinding
import CellC.Proofs.Watch
import CellC.Proofs.Yields
import CellC.Semantics.Access
import CellC.Semantics.Call
import CellC.Semantics.Evaluation
import CellC.Semantics.Expression
import CellC.Semantics.Operation
import CellC.Semantics.Run
import CellC.Semantics.Statement
import CellC.Text.Integer
import CellC.Text.Words
import CellC.Transcript
import CellC.Type.Basic
import CellC.Type.Table
