import CellC.Memory.Heap
import CellC.Machine.Input
import CellC.Program.Basic
import CellC.Program.Setup
import CellC.Cell.Value

/-!
# The journal

A run leaves a journal of what happened: calls, frames, statements, declarations, blocks of memory
and trouble with the input. Most events are reported as a line at some level of detail, and a reader
chooses the level down to which lines are shown.

## Main definitions

* `Event`: what can happen
* `Event.report`: the level and the line of an event
* `journalLines`: the lines of a journal down to a level
-/

namespace CellC

/-- How much detail a reader asks for. -/
inductive Level
  | warn
  | debug
  | trace
deriving DecidableEq

/-- The position of a level, the most severe first. -/
def Level.rank : Level → Nat
  | warn => 0
  | debug => 1
  | trace => 2

/-- Something that happens while a program is set up or runs. -/
inductive Event
  /-- The survey of the top-level declarations begins. -/
  | scan
  /-- The survey found this many primitives and file-scope variables, and the entry point. -/
  | setup (primitives globals : Nat) (entry : FuncId)
  /-- A run begins. -/
  | run
  /-- The entry point returned. -/
  | entryReturned (value : Value)
  /-- A call begins; its arguments are evaluated next. -/
  | call (callee : FuncId)
  /-- The arguments of the call `expr` have been evaluated, and the callee takes over. -/
  | dispatch (expr : ExprId) (values : List Value)
  /-- A frame was pushed, with which there are `depth`. -/
  | push (depth : Nat)
  /-- A frame was popped, without which there are `depth`. -/
  | pop (depth : Nat) (ret : Value)
  /-- A statement begins. -/
  | exec (stmt : StmtId)
  /-- A variable is about to be bound by its declaration. -/
  | declare (var : VarId) (value : Value)
  /-- A block was made. -/
  | allocate (base : Address) (size : Nat) (purpose : Purpose)
  /-- A block was ended. -/
  | release (base : Address) (size : Nat)
  /-- An address was to be released at which no live block starts. -/
  | releaseMissing (address : Address)
  /-- A word of the input is no integer. -/
  | malformedInput (word : String) (error : IntegerError)
  /-- Zero was taken in place of an integer from the input. -/
  | inputUnavailable
deriving DecidableEq

namespace Event

/-- The level and the line of an event in a run of `program`; a dispatch is not reported. -/
def report (program : Program) : Event → Option (Level × String)
  | scan => some (.debug, "SPAN scan")
  | setup primitives globals entry =>
    some (.debug,
      s!"DEBUG program setup builtins={primitives} globals={globals} entry={entry.text}")
  | run => some (.debug, "SPAN run")
  | entryReturned value => some (.debug, s!"DEBUG entry returned value={value.text}")
  | call callee =>
    let name := program.funcName callee
    some (.debug, s!"SPAN eval_call callee={callee.text} name={name}")
  | dispatch _ _ => none
  | push depth => some (.debug, s!"DEBUG push frame depth={depth}")
  | pop depth ret => some (.debug, s!"DEBUG pop frame depth={depth} ret={ret.text}")
  | exec stmt =>
    let form := ((program.stmt? stmt).map Stmt.label).getD NameTable.unknown
    some (.trace, s!"TRACE exec id={stmt.text} kind={form}")
  | declare var value =>
    let name := program.varName var
    let type := program.types.text (program.varType var)
    some (.trace, s!"TRACE declare name={name} ty={type} value={value.text}")
  | allocate base size purpose =>
    some (.debug, s!"DEBUG heap allocate base={base.text} size={size} origin={purpose.text}")
  | release base size => some (.debug, s!"DEBUG heap release base={base.text} size={size}")
  | releaseMissing address =>
    some (.warn,
      s!"WARN release of an address that is not a live block address={address.text}")
  | malformedInput word error =>
    some (.warn, s!"WARN input token is not an integer token={word} err={error.message}")
  | inputUnavailable => some (.warn, "WARN input unavailable, reading 0")

end Event

/-- The lines of a journal that are no more detailed than `level`. -/
def journalLines (program : Program) (level : Level) (journal : List Event) : List String :=
  ((journal.filterMap (Event.report program)).filter (·.1.rank ≤ level.rank)).map (·.2)

/-- The journal of a program's setup. -/
def Setup.journal : Except Fault Setup → List Event
  | .ok setup => [.scan, .setup setup.primitives.size setup.globals.length setup.entry]
  | .error _ => [.scan]

end CellC
