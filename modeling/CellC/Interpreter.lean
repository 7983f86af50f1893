import CellC.Semantics.Run

/-!
# The interpreter

An interpreter is a program that has been set up, together with the machine that it runs on. It can
be asked to run the program, to evaluate one expression or to execute one statement, any number of
times; each request starts from the state that the one before it left behind, also if that one
failed.

## Main definitions

* `Settings`: how an interpreter is to be set up
* `Interpreter.start`: sets a program up
* `Interpreter.run`, `Interpreter.eval`, `Interpreter.exec`: requests
-/

namespace CellC

/-- How an interpreter is to be set up. -/
structure Settings where
  /-- Where integers are read from. -/
  input : Input := .ofList []
  /-- Where lines are printed to. -/
  channel : Channel := .console
  /-- The greatest permitted number of active calls, if there is one. -/
  depthLimit : Option Nat := none
  /-- Whether a line asks for input before an integer is read. -/
  prompt : Bool := true

/-- A program that has been set up, with the machine that it runs on. -/
structure Interpreter where
  /-- What never changes. -/
  config : Config
  /-- What the requests so far left behind. -/
  state : State

namespace Interpreter

/-- The number of levels to which the rules may be nested in one request, which is more than any
memory holds. -/
def levelLimit : Nat := 1000000000000000000

/-- The interpreter of a program, which has to have an entry point. -/
def start (program : Program) (settings : Settings) : Except Fault Interpreter := do
  let setup ← program.setup
  pure {
    config := {
      program
      setup
      depthLimit := settings.depthLimit
      prompt := settings.prompt }
    state := { input := settings.input, printer := { channel := settings.channel } } }

/-- Carries out an action: its result, or why it halted, and the interpreter afterwards. -/
def perform {α : Type} (interpreter : Interpreter) (action : Action α) :
    Except Halt α × Interpreter :=
  match action.run interpreter.state with
  | .ok a state => (.ok a, { interpreter with state })
  | .error halt state => (.error halt, { interpreter with state })

/-- Runs the program. -/
def run (interpreter : Interpreter) : Except Halt Value × Interpreter :=
  interpreter.perform (interpreter.config.run levelLimit)

/-- Evaluates an expression in the innermost activation. -/
def eval (interpreter : Interpreter) (expr : ExprId) : Except Halt Value × Interpreter :=
  interpreter.perform (CellC.eval interpreter.config levelLimit expr)

/-- Executes a statement in the innermost activation. -/
def exec (interpreter : Interpreter) (stmt : StmtId) : Except Halt Completion × Interpreter :=
  interpreter.perform (CellC.exec interpreter.config levelLimit stmt)

/-- The value of a file-scope variable. -/
def fileScopeValue? (interpreter : Interpreter) (var : VarId) : Option Value :=
  interpreter.state.stack.root.value? var

/-- Forgets the output that was kept. -/
def clearOutput (interpreter : Interpreter) : Interpreter :=
  { interpreter with
    state := { interpreter.state with printer := interpreter.state.printer.clear } }

/-- Forgets the journal. -/
def clearJournal (interpreter : Interpreter) : Interpreter :=
  { interpreter with state := { interpreter.state with journal := #[] } }

end Interpreter

end CellC
